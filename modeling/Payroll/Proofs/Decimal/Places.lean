import Payroll.Proofs.Decimal.Cents

namespace Payroll

/-!
# Rounding to places

What a number is rounded to, said without the computation, and which decimals can say to
how many places.

* `IsNearestMultiple` — the multiple of a unit that is nearest to a number, ties away from zero.
* `IsNearestMultiple.unique`, `isNearestMultiple_nearestWhole` — there is exactly one.
* `isNearestMultiple_iff` — it is the one that is half a unit away at most, and beyond the number
  on a tie.
* `IsNearestMultiple.mono` — greater numbers have no smaller one.
* `Decimal.isNearestMultiple_roundTo` — **rounding to places** gives the nearest unit of
  the last one.
* `Decimal.toNat?_eq_some_iff` — a decimal stands for a natural number by its value alone, but for
  the sign of a zero.
-/

/-- Of all multiples of the unit `u`, `r` is the nearest to `q`, and of two equally near ones the
    one farther from zero. -/
structure IsNearestMultiple (u q r : ℚ) : Prop where
  multiple : ∃ k : ℤ, r = k * u
  nearest : ∀ k : ℤ, |r - q| ≤ |k * u - q|
  tie : ∀ k : ℤ, |k * u - q| = |r - q| → |k * u| ≤ |r|

/-! ### There is exactly one -/

theorem IsNearestMultiple.unique {u q r r' : ℚ} (h : IsNearestMultiple u q r)
    (h' : IsNearestMultiple u q r') : r = r' := by
  obtain ⟨k, rfl⟩ := h.multiple
  obtain ⟨k', rfl⟩ := h'.multiple
  have hdistance : |k * u - q| = |k' * u - q| := le_antisymm (h.nearest k') (h'.nearest k)
  have hsize : |k * u| = |k' * u| := le_antisymm (h'.tie k hdistance) (h.tie k' hdistance.symm)
  rcases abs_eq_abs.1 hsize with hsame | hopposite
  · exact hsame
  · -- Opposite numbers are equally far from zero only, to which zero itself is nearer.
    have hzero : k * u = 0 := by
      rcases abs_eq_abs.1 hdistance with hleft | hright
      · linarith
      · have hq : q = 0 := by linarith
        have hnearest := h.nearest 0
        rw [hq, Int.cast_zero, zero_mul, sub_zero, sub_zero, abs_zero] at hnearest
        exact abs_nonpos_iff.1 hnearest
    linarith

/-- How far off a multiple of the unit is, in units. -/
theorem abs_mul_sub (k : ℤ) (q : ℚ) {u : ℚ} (hu : 0 < u) : |k * u - q| = |k - q / u| * u := by
  calc |k * u - q| = |(k - q / u) * u| := by rw [sub_mul, div_mul_cancel₀ _ hu.ne']
    _ = |k - q / u| * u := by rw [abs_mul, abs_of_pos hu]

/-- The nearest whole number of units makes the nearest multiple. -/
theorem isNearestMultiple_nearestWhole (q : ℚ) {u : ℚ} (hu : 0 < u) :
    IsNearestMultiple u q (nearestWhole (q / u) * u) where
  multiple := ⟨_, rfl⟩
  nearest k := by
    rw [abs_mul_sub _ _ hu, abs_mul_sub _ _ hu]
    exact mul_le_mul_of_nonneg_right (nearestWhole_spec (q / u) k).1 hu.le
  tie k h := by
    rw [abs_mul_sub _ _ hu, abs_mul_sub _ _ hu, mul_left_inj' hu.ne'] at h
    rw [abs_mul, abs_mul]
    refine mul_le_mul_of_nonneg_right ?_ (abs_nonneg u)
    exact_mod_cast (nearestWhole_spec (q / u) k).2 h

/-- Other multiples of a unit are a unit away at least. -/
theorem le_abs_mul_sub_mul {j k : ℤ} {u : ℚ} (hu : 0 < u) (h : j ≠ k) : u ≤ |j * u - k * u| := by
  have hone : (1 : ℚ) ≤ |(j : ℚ) - k| := by exact_mod_cast Int.one_le_abs (sub_ne_zero.2 h)
  rw [← sub_mul, abs_mul, abs_of_pos hu]
  exact le_mul_of_one_le_left hu.le hone

/-- The nearest multiple is half a unit away at most. -/
theorem IsNearestMultiple.abs_sub_le {u q r : ℚ} (hu : 0 < u) (h : IsNearestMultiple u q r) :
    |r - q| ≤ u / 2 := by
  have hhalf := mul_le_mul_of_nonneg_right (abs_nearestWhole_sub_le (q / u)) hu.le
  rw [h.unique (isNearestMultiple_nearestWhole q hu), abs_mul_sub _ _ hu]
  linarith only [hhalf]

/-- Half a unit away, it is farther from zero than the number. -/
theorem IsNearestMultiple.abs_lt_abs {u q r : ℚ} (hu : 0 < u) (h : IsNearestMultiple u q r)
    (htie : |r - q| = u / 2) : |q| < |r| := by
  by_contra hle
  rw [not_lt] at hle
  -- On the other side of the number there is a multiple that is as near, and not farther from zero.
  obtain ⟨k, rfl⟩ := h.multiple
  obtain ⟨j, hj⟩ : ∃ j : ℤ, (j * u : ℚ) = 2 * q - k * u := by
    rcases (abs_eq (half_pos hu).le).1 htie with habove | hbelow
    · exact ⟨k - 1, by push_cast; linarith only [habove]⟩
    · exact ⟨k + 1, by push_cast; linarith only [hbelow]⟩
  have hother := h.tie j (by rw [hj, abs_sub_comm (k * u : ℚ)]; congr 1; ring)
  rw [hj, abs_le] at hother
  -- So the number is the opposite of the multiple and zero, but half a unit lies between them.
  rcases abs_cases q with ⟨hq, _⟩ | ⟨hq, _⟩ <;>
    rcases abs_cases (k * u : ℚ) with ⟨hr, _⟩ | ⟨hr, _⟩ <;>
    rcases (abs_eq (half_pos hu).le).1 htie with hd | hd <;>
      linarith only [hother, hle, hq, hr, hd, hu]

/-- **Within half a unit** there is one multiple, or there are two of them, of which only one is
    farther from zero than the number: that is the nearest one. -/
theorem isNearestMultiple_iff {u q r : ℚ} (hu : 0 < u) : IsNearestMultiple u q r ↔
    (∃ k : ℤ, r = k * u) ∧ |r - q| ≤ u / 2 ∧ (|r - q| = u / 2 → |q| < |r|) := by
  refine ⟨fun h => ⟨h.multiple, h.abs_sub_le hu, h.abs_lt_abs hu⟩, ?_⟩
  rintro ⟨⟨k, rfl⟩, hhalf, haway⟩
  have hfar : ∀ j : ℤ, j ≠ k → u / 2 ≤ |j * u - q| := by
    intro j hj
    have hunit := le_abs_mul_sub_mul hu hj
    have htriangle := abs_sub_le (j * u : ℚ) q (k * u)
    rw [abs_sub_comm q] at htriangle
    linarith only [hunit, htriangle, hhalf]
  refine ⟨⟨k, rfl⟩, fun j => ?_, fun j htie => ?_⟩
  · rcases eq_or_ne j k with rfl | hj
    · exact le_rfl
    · exact hhalf.trans (hfar j hj)
  · rcases eq_or_ne j k with rfl | hj
    · exact le_rfl
    · -- The other one lies between this one and its opposite, as this one is a unit away from zero
      -- at least.
      have hdistance := le_antisymm hhalf (htie ▸ hfar j hj)
      have hlarger := haway hdistance
      have hk : k ≠ 0 := by
        rintro rfl
        rw [Int.cast_zero, zero_mul, abs_zero] at hlarger
        exact absurd hlarger (not_lt.2 (abs_nonneg q))
      have hunit := le_abs_mul_sub_mul hu hk
      rw [Int.cast_zero, zero_mul, sub_zero] at hunit
      have hsum : (j * u : ℚ) = 2 * q - k * u := by
        rcases abs_eq_abs.1 htie with hsame | hopposite
        · refine absurd (mul_right_cancel₀ hu.ne' (sub_left_inj.1 hsame)) ?_
          exact_mod_cast hj
        · linarith only [hopposite]
      rw [hsum, abs_le]
      rcases abs_cases (k * u : ℚ) with ⟨hr, _⟩ | ⟨hr, _⟩ <;>
        rcases (abs_eq (half_pos hu).le).1 hdistance with hd | hd <;>
          constructor <;> linarith only [abs_lt.1 hlarger, hunit, hr, hd, hu]

/-- What is no nearer on the lower side is not below the middle. -/
theorem add_le_of_abs_sub_le {q r r' : ℚ} (hlt : r' < r) (h : |r - q| ≤ |r' - q|) :
    r' + r ≤ 2 * q := by
  by_contra hgt
  rw [not_le] at hgt
  have hnearer : |r' - q| < r - q := abs_lt.2 ⟨by linarith only [hgt], by linarith only [hlt]⟩
  exact absurd (le_abs_self (r - q)) (not_le.2 (lt_of_le_of_lt h hnearer))

/-- **Greater numbers** have no smaller nearest multiple. -/
theorem IsNearestMultiple.mono {u q q' r r' : ℚ} (hq : q ≤ q') (h : IsNearestMultiple u q r)
    (h' : IsNearestMultiple u q' r') : r ≤ r' := by
  by_contra hlt
  rw [not_le] at hlt
  obtain ⟨k, rfl⟩ := h.multiple
  obtain ⟨k', rfl⟩ := h'.multiple
  -- The first number would be above the middle of the two multiples, and the second one below it.
  have hlow := add_le_of_abs_sub_le hlt (h.nearest k')
  have hhigh : -(k * u : ℚ) + -(k' * u) ≤ 2 * -q' := by
    refine add_le_of_abs_sub_le (neg_lt_neg hlt) ?_
    rw [neg_sub_neg, neg_sub_neg, abs_sub_comm, abs_sub_comm q']
    exact h'.nearest k
  obtain rfl : q = q' := le_antisymm hq (by linarith only [hlow, hhigh])
  exact absurd (h.unique h') hlt.ne'

/-! ### Decimals -/

namespace Decimal

/-- **Rounding to places** gives the multiple of the last one that is nearest. -/
theorem isNearestMultiple_roundTo (places : Nat) (d : Decimal) :
    IsNearestMultiple (1 / pow10 places) d.value (d.roundTo places).value := by
  have hunit : (0 : ℚ) < 1 / pow10 places := one_div_pos.2 (cast_pow10_pos places)
  have hnearest := isNearestMultiple_nearestWhole d.value hunit
  rwa [div_div_eq_mul_div, div_one, mul_one_div, ← value_roundTo] at hnearest

/-- **A natural number** is found from the value alone, but for the sign of a zero. -/
theorem toNat?_eq_some_iff {d : Decimal} {n : Nat} :
    d.toNat? = some n ↔ d.HasPlainZero ∧ d.value = n := by
  constructor
  · intro h
    have hplain : d.HasPlainZero := by
      -- A number with a sign is refused, whatever its size.
      refine hasPlainZero_of_nonneg (Bool.eq_false_iff.2 fun hnegative => ?_)
      rw [toNat?, if_pos hnegative] at h
      cases h
    exact ⟨hplain, hplain.toNat?_eq_some_iff.1 h⟩
  · rintro ⟨hplain, hvalue⟩
    exact hplain.toNat?_eq_some_iff.2 hvalue

end Decimal

end Payroll
