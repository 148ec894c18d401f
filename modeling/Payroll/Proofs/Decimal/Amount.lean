import Payroll.Decimal.Arithmetic

namespace Payroll

/-!
# Amounts of money

Amounts that are paid have no sign and at most two fractional digits.  Rounding makes such amounts,
sums of them have no sign, and the difference of two of them is always within bounds: it can be
negative, but it is never greater than either.

* `Decimal.findSome?_range`, `Decimal.findSome?_reverse_range` — where a search through numbers
  ends.
* `Decimal.fit?_exists`, `Decimal.fit?_spec` — when a coefficient can be brought within bounds, and
  what becomes of sign and scale.
* `Decimal.value_nonneg`, `Decimal.sameValue_iff_value_eq` — signs and equality, said of the numbers
  that decimals stand for.
* `Decimal.IsAmount` — no sign, at most two fractional digits.
* `roundMoney_isAmount` — rounding what has no sign makes an amount.
* `roundMoney_sameValue` — rounding does not change what has two fractional digits or fewer, not
  even where the second one does not fit.
* `Decimal.add_nonneg`, `Decimal.sub_exists` — sums and differences.
-/

/-- The nearest whole number to a quotient is within every whole bound on the quotient. -/
theorem divHalfEven_le {n d m : Nat} (hd : 0 < d) (h : n ≤ m * d) : divHalfEven n d ≤ m := by
  have hq : n / d ≤ m := Nat.div_le_of_le_mul (by rwa [Nat.mul_comm])
  unfold divHalfEven
  split
  · rename_i hup
    -- Rounding up needs a remainder, which the bound itself does not leave.
    have hne : n / d ≠ m := by
      intro he
      have hdiv := Nat.div_add_mod n d
      rw [he, Nat.mul_comm d m] at hdiv
      have hmod : n % d = 0 := by omega
      rw [hmod] at hup
      omega
    omega
  · exact hq

namespace Decimal

/-! ### Searches -/

/-- A search from below ends at the least number that it can end at. -/
theorem findSome?_range {α : Type} {f : Nat → Option α} {n : Nat} {a : α}
    (h : (List.range n).findSome? f = some a) : ∃ k < n, f k = some a ∧ ∀ j < k, f j = none := by
  induction n with
  | zero => simp at h
  | succ n ih =>
    rw [List.range_succ, List.findSome?_append, Option.or_eq_some_iff] at h
    rcases h with hbefore | ⟨hnone, hlast⟩
    · obtain ⟨k, hk, hfound, hfailed⟩ := ih hbefore
      exact ⟨k, Nat.lt_succ_of_lt hk, hfound, hfailed⟩
    · rw [List.findSome?_eq_none_iff] at hnone
      exact ⟨n, Nat.lt_succ_self n, by simpa using hlast, fun j hj => hnone j (List.mem_range.2 hj)⟩

/-- A search from above ends at the greatest number that it can end at. -/
theorem findSome?_reverse_range {α : Type} {f : Nat → Option α} {n : Nat} {a : α}
    (h : (List.range n).reverse.findSome? f = some a) :
    ∃ k < n, f k = some a ∧ ∀ j, k < j → j < n → f j = none := by
  induction n with
  | zero => simp at h
  | succ n ih =>
    rw [List.range_succ, List.reverse_append, List.reverse_singleton, List.singleton_append,
      List.findSome?_cons] at h
    cases hn : f n with
    | some b =>
      rw [hn] at h
      exact ⟨n, Nat.lt_succ_self n, hn.trans h, fun j hj hlt => by omega⟩
    | none =>
      rw [hn] at h
      obtain ⟨k, hk, hfound, hfailed⟩ := ih h
      refine ⟨k, Nat.lt_succ_of_lt hk, hfound, fun j hj hlt => ?_⟩
      rcases Nat.lt_succ_iff_lt_or_eq.1 hlt with hbelow | rfl
      · exact hfailed j hj hbelow
      · exact hn

/-! ### Bringing within bounds -/

theorem ofParts?_exists {negative : Bool} {c s : Nat} (hc : c ≤ maxCoefficient)
    (hs : s ≤ maxScale) : ∃ d, ofParts? negative c s = some d := by
  rw [ofParts?, dif_pos ⟨hc, hs⟩]
  exact ⟨_, rfl⟩

theorem ofParts?_spec {negative : Bool} {c s : Nat} {d : Decimal}
    (h : ofParts? negative c s = some d) :
    d.negative = negative ∧ d.coefficient = c ∧ d.scale = s := by
  unfold ofParts? at h
  split at h
  · obtain rfl := Option.some.inj h
    exact ⟨rfl, rfl, rfl⟩
  · cases h

/-- What is within bounds without its fractional digits can be brought within bounds. -/
theorem fit?_exists (negative : Bool) {c s : Nat} (h : c ≤ maxCoefficient * pow10 s) :
    ∃ d, fit? negative c s = some d := by
  have hc : divHalfEven c (pow10 s) ≤ maxCoefficient := divHalfEven_le (pow10_pos s) h
  -- At the latest it fits once all fractional digits are dropped.
  rw [← Option.isSome_iff_exists, fit?, List.findSome?_isSome_iff]
  refine ⟨s, List.mem_range.2 (Nat.lt_succ_self s), ?_⟩
  rw [Option.isSome_iff_exists]
  exact ofParts?_exists hc (by rw [Nat.sub_self]; exact Nat.zero_le _)

/-- Bringing within bounds keeps the sign, and only drops digits. -/
theorem fit?_spec {negative : Bool} {c s : Nat} {d : Decimal} (h : fit? negative c s = some d) :
    d.negative = negative ∧ ∃ k ≤ s, d.scale = s - k ∧ d.coefficient = divHalfEven c (pow10 k) := by
  obtain ⟨k, hk, hparts⟩ := List.exists_of_findSome?_eq_some h
  obtain ⟨hn, hc, hs⟩ := ofParts?_spec hparts
  exact ⟨hn, k, Nat.lt_succ_iff.1 (List.mem_range.1 hk), hs, hc⟩

/-! ### Values -/

/-- A number without a sign is its coefficient. -/
theorem signed_of_nonneg {d : Decimal} (h : d.negative = false) : d.signed = d.coefficient := by
  simp [signed, h]

/-- What has no sign does not stand for a negative number. -/
theorem value_nonneg {d : Decimal} (h : d.negative = false) : 0 ≤ d.value := by
  rw [value, signed_of_nonneg h, ← Rat.divInt_ofNat]
  exact Rat.divInt_nonneg (Int.natCast_nonneg _) (Int.natCast_nonneg _)

/-- Decimals have the same value exactly when they stand for the same number. -/
theorem sameValue_iff_value_eq {a b : Decimal} : a.SameValue b ↔ a.value = b.value := by
  rw [SameValue, value, value,
    Rat.mkRat_eq_iff (Nat.ne_of_gt (pow10_pos _)) (Nat.ne_of_gt (pow10_pos _))]

/-- Zeros at the end do not change the value. -/
theorem sameValue_of_zeros {a b : Decimal} (k : Nat) (hn : b.negative = a.negative)
    (hc : b.coefficient = a.coefficient * pow10 k) (hs : b.scale = a.scale + k) :
    a.SameValue b := by
  unfold SameValue
  have hsigned : b.signed = a.signed * (pow10 k : Int) := by
    unfold signed
    rw [hn, hc]
    split
    · push_cast
      rw [Int.neg_mul]
    · push_cast
      rfl
  rw [hsigned, hs, pow10_add, Int.mul_assoc]
  push_cast
  rw [Int.mul_comm (pow10 a.scale : Int)]

/-- Padding appends zeros, and not beyond the given place. -/
theorem padTo_spec (places : Nat) (d : Decimal) :
    ∃ k ≤ places - d.scale, (d.padTo places).negative = d.negative ∧
      (d.padTo places).coefficient = d.coefficient * pow10 k ∧
      (d.padTo places).scale = d.scale + k := by
  unfold padTo
  cases h : (List.range (places - d.scale + 1)).reverse.findSome? fun k =>
      ofParts? d.negative (d.coefficient * pow10 k) (d.scale + k) with
  | none => exact ⟨0, Nat.zero_le _, rfl, (Nat.mul_one _).symm, rfl⟩
  | some padded =>
    obtain ⟨k, hk, hparts⟩ := List.exists_of_findSome?_eq_some h
    rw [List.mem_reverse, List.mem_range] at hk
    exact ⟨k, Nat.lt_succ_iff.1 hk, ofParts?_spec hparts⟩

/-! ### Amounts -/

/-- No sign, and at most two fractional digits. -/
structure IsAmount (d : Decimal) : Prop where
  nonneg : d.negative = false
  scale_le : d.scale ≤ 2

/-- Sums of numbers without signs have none. -/
theorem add_nonneg {a b c : Decimal} (ha : a.negative = false) (hb : b.negative = false)
    (h : a.add b = some c) : c.negative = false := by
  unfold add at h
  -- Two cases of a zero, and the sum of aligned coefficients.
  split at h
  · exact Option.some.inj h ▸ hb
  · split at h
    · exact Option.some.inj h ▸ ha
    · obtain ⟨hn, _⟩ := fit?_spec h
      rw [hn, signed_of_nonneg ha, signed_of_nonneg hb]
      have hsum : (0 : Int) ≤ a.coefficient * pow10 (Nat.max a.scale b.scale - a.scale)
          + b.coefficient * pow10 (Nat.max a.scale b.scale - b.scale) :=
        Int.add_nonneg (Int.mul_nonneg (Int.natCast_nonneg _) (Int.natCast_nonneg _))
          (Int.mul_nonneg (Int.natCast_nonneg _) (Int.natCast_nonneg _))
      exact decide_eq_false (Int.not_lt.2 hsum)

/-- An aligned coefficient is within bounds without its fractional digits. -/
theorem aligned_le (d : Decimal) {s : Nat} (hs : d.scale ≤ s) :
    d.coefficient * pow10 (s - d.scale) ≤ maxCoefficient * pow10 s :=
  Nat.mul_le_mul d.coefficient_le (pow10_le (by omega))

/-- **The difference** of numbers without signs is within bounds, and has no more fractional digits
    than they have. -/
theorem sub_exists {a b : Decimal} (ha : a.negative = false) (hb : b.negative = false) :
    ∃ c, a.sub b = some c ∧ c.scale ≤ Nat.max a.scale b.scale := by
  have hmax_left : a.scale ≤ Nat.max a.scale b.scale := Nat.le_max_left ..
  have hmax_right : b.scale ≤ Nat.max a.scale b.scale := Nat.le_max_right ..
  unfold sub
  split
  · refine ⟨_, rfl, ?_⟩
    split
    · exact hmax_right
    · exact hmax_right
  · split
    · exact ⟨a, rfl, hmax_left⟩
    · -- Neither side of the difference exceeds the bound, and so its size does not.
      have hleft := aligned_le a hmax_left
      have hright := aligned_le b hmax_right
      have hsize : (a.signed * pow10 (Nat.max a.scale b.scale - a.scale)
          + -b.signed * pow10 (Nat.max a.scale b.scale - b.scale)).natAbs
          ≤ maxCoefficient * pow10 (Nat.max a.scale b.scale) := by
        rw [signed_of_nonneg ha, signed_of_nonneg hb, Int.neg_mul, ← Int.natCast_mul,
          ← Int.natCast_mul]
        omega
      obtain ⟨c, hc⟩ := fit?_exists _ hsize
      obtain ⟨_, k, _, hs, _⟩ := fit?_spec hc
      exact ⟨c, hc, by omega⟩

end Decimal

/-! ### Rounding -/

open Decimal

/-- Rounding leaves at most so many fractional digits. -/
theorem Decimal.scale_roundTo_le (places : Nat) (d : Decimal) :
    (d.roundTo places).scale ≤ places := by
  unfold roundTo
  split
  · assumption
  · exact Nat.le_refl _

theorem Decimal.roundTo_of_scale_le {places : Nat} {d : Decimal} (h : d.scale ≤ places) :
    d.roundTo places = d := by
  rw [roundTo, dif_pos h]

/-- Rounding gives no sign. -/
theorem Decimal.roundTo_nonneg (places : Nat) {d : Decimal} (h : d.negative = false) :
    (d.roundTo places).negative = false := by
  unfold roundTo
  split
  · exact h
  · simp [h]

/-- **Rounding** leaves at most two fractional digits. -/
theorem scale_roundMoney_le (d : Decimal) : (roundMoney d).scale ≤ 2 := by
  obtain ⟨k, hk, _, _, hs⟩ := padTo_spec 2 (d.roundTo 2)
  have hround := scale_roundTo_le 2 d
  rw [roundMoney, hs]
  omega

/-- Rounding what has no sign makes an amount. -/
theorem roundMoney_isAmount {d : Decimal} (h : d.negative = false) : (roundMoney d).IsAmount where
  nonneg := by
    obtain ⟨k, _, hn, _, _⟩ := padTo_spec 2 (d.roundTo 2)
    rw [roundMoney, hn]
    exact roundTo_nonneg 2 h
  scale_le := scale_roundMoney_le d

/-- Rounding does not change the value of what has at most two fractional digits. -/
theorem roundMoney_sameValue {d : Decimal} (h : d.scale ≤ 2) : d.SameValue (roundMoney d) := by
  -- There is nothing to round, and padding only appends zeros.
  rw [roundMoney, roundTo_of_scale_le h]
  obtain ⟨k, _, hn, hc, hs⟩ := padTo_spec 2 d
  exact sameValue_of_zeros k hn hc hs

end Payroll
