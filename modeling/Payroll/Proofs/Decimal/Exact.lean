import Mathlib.Algebra.BigOperators.Group.List.Basic
import Mathlib.Algebra.Order.Field.Rat
import Mathlib.Data.Rat.Lemmas
import Mathlib.Tactic.Ring
import Payroll.Proofs.Decimal.Amount
import Payroll.Run

namespace Payroll

/-!
# Exact sums

A sum of decimals can need more digits than a decimal has: it then loses its lowest ones.  It loses
none if some decimal stands for it, for no more digits are dropped than have to be.

* `Decimal.Fits`, `Decimal.fits_iff` — a number that some decimal stands for.
* `Decimal.lt_iff_value_lt`, `Decimal.value_max` and the like — comparing decimals is comparing what
  they stand for.
* `Decimal.fit?_of_fits` — such a number is brought within bounds without any loss.
* `Decimal.add_of_fits`, `Decimal.sub_of_fits` — hence **sums and differences that fit are exact**.
* `Decimal.SumsFit`, `Decimal.sum?_of_sumsFit` — a list of amounts adds up exactly if every sum on
  the way fits.

Signs of zeros are followed on the way (`Decimal.HasPlainZero`): adding and subtracting make no zero
with a sign.
-/

namespace Decimal

/-- Some decimal stands for the number. -/
def Fits (q : ℚ) : Prop := ∃ d : Decimal, d.value = q

/-! ### Values as quotients -/

theorem cast_pow10_pos (k : Nat) : (0 : ℚ) < pow10 k := by exact_mod_cast pow10_pos k

/-- The value is the signed coefficient over a power of ten. -/
theorem value_eq_div (d : Decimal) : d.value = d.signed / pow10 d.scale := by
  rw [value, Rat.mkRat_eq_div]

theorem natAbs_signed (d : Decimal) : d.signed.natAbs = d.coefficient := by
  unfold signed
  split
  · rw [Int.natAbs_neg, Int.natAbs_natCast]
  · rw [Int.natAbs_natCast]

/-- **What fits** are the whole numbers over powers of ten, both of them within bounds. -/
theorem fits_iff {q : ℚ} : Fits q ↔
    ∃ (n : ℤ) (places : Nat), n.natAbs ≤ maxCoefficient ∧ places ≤ maxScale ∧
      q = n / pow10 places := by
  constructor
  · rintro ⟨d, rfl⟩
    exact ⟨d.signed, d.scale, (natAbs_signed d).trans_le d.coefficient_le, d.scale_le,
      value_eq_div d⟩
  · rintro ⟨n, places, hn, hplaces, rfl⟩
    have hsigned : (⟨decide (n < 0), n.natAbs, places, hn, hplaces⟩ : Decimal).signed = n := by
      unfold signed
      simp only [decide_eq_true_eq]
      split <;> omega
    refine ⟨⟨decide (n < 0), n.natAbs, places, hn, hplaces⟩, ?_⟩
    rw [value_eq_div, hsigned]

@[simp] theorem value_zero : zero.value = 0 := by
  rw [value_eq_div]
  simp [zero, signed]

/-- A whole number within bounds stands for itself. -/
theorem value_ofNat {n : Nat} (h : n ≤ maxCoefficient) : (ofNat n).value = n := by
  rw [value_eq_div]
  simp [ofNat, signed, Nat.min_eq_left h]

/-- A zero of either sign and any scale stands for zero, and nothing else does. -/
theorem isZero_iff_value_eq {d : Decimal} : d.isZero = true ↔ d.value = 0 := by
  have hpos := cast_pow10_pos d.scale
  rw [value_eq_div, div_eq_zero_iff, Int.cast_eq_zero, ← Int.natAbs_eq_zero, natAbs_signed, isZero,
    beq_iff_eq]
  exact ⟨.inl, fun h => h.resolve_right hpos.ne'⟩

/-- The opposite sign stands for the opposite number. -/
theorem value_neg (d : Decimal) : d.neg.value = -d.value := by
  have hsigned : d.neg.signed = -d.signed := by
    cases h : d.negative <;> simp [neg, signed, h]
  rw [value_eq_div, value_eq_div, hsigned, Int.cast_neg, neg_div]
  rfl

/-- What has a sign does not stand for a positive number. -/
theorem value_nonpos {d : Decimal} (h : d.negative = true) : d.value ≤ 0 := by
  have hneg := value_nonneg (d := d.neg) (by simp [neg, h])
  rwa [value_neg, neg_nonneg] at hneg

/-! ### Comparisons -/

theorem lt_iff_value_lt {a b : Decimal} : a < b ↔ a.value < b.value := by
  rw [value_eq_div, value_eq_div, div_lt_div_iff₀ (cast_pow10_pos _) (cast_pow10_pos _)]
  exact_mod_cast Iff.rfl

theorem le_iff_value_le {a b : Decimal} : a ≤ b ↔ a.value ≤ b.value := by
  rw [value_eq_div, value_eq_div, div_le_div_iff₀ (cast_pow10_pos _) (cast_pow10_pos _)]
  exact_mod_cast Iff.rfl

theorem value_max (a b : Decimal) : (a.max b).value = Max.max a.value b.value := by
  unfold max
  split
  · rename_i h
    exact (max_eq_right (lt_iff_value_lt.1 h).le).symm
  · rename_i h
    exact (max_eq_left (not_lt.1 (mt lt_iff_value_lt.2 h))).symm

theorem value_min (a b : Decimal) : (a.min b).value = Min.min a.value b.value := by
  unfold min
  split
  · rename_i h
    exact (min_eq_right (lt_iff_value_lt.1 h).le).symm
  · rename_i h
    exact (min_eq_left (not_lt.1 (mt lt_iff_value_lt.2 h))).symm

/-! ### Signs of zeros -/

/-- A zero without a sign, or another number. -/
def HasPlainZero (d : Decimal) : Prop := d.isZero = true → d.negative = false

theorem hasPlainZero_of_nonneg {d : Decimal} (h : d.negative = false) : d.HasPlainZero := fun _ => h

/-- If zeros have no sign, then only negative numbers have one. -/
theorem HasPlainZero.negative_eq {d : Decimal} (h : d.HasPlainZero) :
    d.negative = decide (d.value < 0) := by
  cases hn : d.negative with
  | false => exact (decide_eq_false (not_lt.2 (value_nonneg hn))).symm
  | true =>
    have hne : d.value ≠ 0 := fun hzero => by
      rw [h (isZero_iff_value_eq.2 hzero)] at hn
      cases hn
    exact (decide_eq_true (lt_of_le_of_ne (value_nonpos hn) hne)).symm

/-- If zeros have no sign, the natural number that a decimal stands for is found. -/
theorem HasPlainZero.toNat?_eq_some_iff {d : Decimal} (h : d.HasPlainZero) {n : Nat} :
    d.toNat? = some n ↔ d.value = n := by
  have hpos := pow10_pos d.scale
  have hvalue : d.negative = false → (d.value = n ↔ d.coefficient = n * pow10 d.scale) := by
    intro hn
    rw [value_eq_div, signed_of_nonneg hn, div_eq_iff (cast_pow10_pos _).ne']
    norm_cast
  unfold toNat?
  cases hn : d.negative with
  | true =>
    have hneg : d.value < 0 := of_decide_eq_true (h.negative_eq.symm.trans hn)
    have hne : d.value ≠ n := (lt_of_lt_of_le hneg (Nat.cast_nonneg n)).ne
    simp [hne]
  | false =>
    rw [hvalue hn, if_neg Bool.false_ne_true]
    constructor
    · intro hsome
      split at hsome
      · rename_i hmod
        rw [← Option.some.inj hsome, Nat.div_mul_cancel (Nat.dvd_of_mod_eq_zero hmod)]
      · cases hsome
    · intro heq
      rw [heq, Nat.mul_mod_left, if_pos rfl, Nat.mul_div_cancel _ hpos]

/-! ### Bringing within bounds without loss -/

theorem divHalfEven_of_dvd {n d : Nat} (hd : 0 < d) (h : d ∣ n) : divHalfEven n d = n / d := by
  rw [divHalfEven, Nat.mod_eq_zero_of_dvd h, if_neg]
  omega

/-- What fits once `k` zeros at its end are dropped is brought within bounds by
    dropping zeros only. -/
theorem fit?_of_dvd (negative : Bool) {c s k : Nat} (hk : k ≤ s) (hdvd : pow10 k ∣ c)
    (hc : c / pow10 k ≤ maxCoefficient) (hs : s - k ≤ maxScale) :
    ∃ d, fit? negative c s = some d ∧ d.negative = negative ∧
      ∃ j ≤ s, d.scale = s - j ∧ d.coefficient * pow10 j = c := by
  have htry : ∃ d, ofParts? negative (divHalfEven c (pow10 k)) (s - k) = some d := by
    rw [divHalfEven_of_dvd (pow10_pos k) hdvd]
    exact ofParts?_exists hc hs
  -- The search ends at `k` or before, as it meets `k` on its way.
  obtain ⟨d, hd⟩ : ∃ d, (List.range (k + 1)).findSome? (fun j =>
      ofParts? negative (divHalfEven c (pow10 j)) (s - j)) = some d := by
    rw [← Option.isSome_iff_exists, List.findSome?_isSome_iff]
    exact ⟨k, List.mem_range.2 (Nat.lt_succ_self k), Option.isSome_iff_exists.2 htry⟩
  obtain ⟨j, hj, hparts⟩ := List.exists_of_findSome?_eq_some hd
  have hjk : j ≤ k := Nat.lt_succ_iff.1 (List.mem_range.1 hj)
  have hfit : fit? negative c s = some d := by
    rw [fit?, show s + 1 = (k + 1) + (s - k) by omega, List.range_add, List.findSome?_append, hd,
      Option.some_or]
  obtain ⟨hn, hcoefficient, hscale⟩ := ofParts?_spec hparts
  -- What `k` zeros end in ends in fewer zeros, too.
  have hjdvd : pow10 j ∣ c := by
    refine Nat.dvd_trans ⟨pow10 (k - j), ?_⟩ hdvd
    rw [← pow10_add, Nat.add_sub_cancel' hjk]
  refine ⟨d, hfit, hn, j, Nat.le_trans hjk hk, hscale, ?_⟩
  rw [hcoefficient, divHalfEven_of_dvd (pow10_pos j) hjdvd, Nat.div_mul_cancel hjdvd]

/-- If a decimal stands for a quotient by a power of ten, zeros can be dropped from the numerator
    until it is within bounds. -/
theorem exists_zeros_of_fits {n : ℤ} {s : Nat} (h : Fits (n / pow10 s)) :
    ∃ k ≤ s, pow10 k ∣ n.natAbs ∧ n.natAbs / pow10 k ≤ maxCoefficient ∧ s - k ≤ maxScale := by
  obtain ⟨d, hd⟩ := h
  have hcross : d.coefficient * pow10 s = n.natAbs * pow10 d.scale := by
    rw [value_eq_div, div_eq_div_iff (cast_pow10_pos _).ne' (cast_pow10_pos _).ne'] at hd
    have hint : d.signed * pow10 s = n * pow10 d.scale := by exact_mod_cast hd
    simpa [Int.natAbs_mul, natAbs_signed] using congrArg Int.natAbs hint
  rcases Nat.le_total d.scale s with hle | hle
  · -- The decimal has fewer fractional digits: the others are zeros.
    have hn : n.natAbs = d.coefficient * pow10 (s - d.scale) := by
      rw [← Nat.add_sub_cancel' hle, pow10_add, Nat.mul_comm (pow10 d.scale),
        ← Nat.mul_assoc] at hcross
      exact (Nat.eq_of_mul_eq_mul_right (pow10_pos _) hcross).symm
    refine ⟨s - d.scale, Nat.sub_le .., ⟨d.coefficient, by rw [hn, Nat.mul_comm]⟩, ?_, ?_⟩
    · rw [hn, Nat.mul_div_cancel _ (pow10_pos _)]
      exact d.coefficient_le
    · rw [Nat.sub_sub_self hle]
      exact d.scale_le
  · -- It has more of them, so that the numerator is no greater than its coefficient.
    have hn : n.natAbs ≤ d.coefficient := by
      rw [← Nat.add_sub_cancel' hle, pow10_add, Nat.mul_comm (pow10 s), ← Nat.mul_assoc] at hcross
      rw [Nat.eq_of_mul_eq_mul_right (pow10_pos _) hcross]
      exact Nat.le_mul_of_pos_right _ (pow10_pos _)
    refine ⟨0, Nat.zero_le s, Nat.one_dvd _, ?_, Nat.le_trans hle d.scale_le⟩
    rw [pow10_zero, Nat.div_one]
    exact Nat.le_trans hn d.coefficient_le

/-- **What fits is brought within bounds without any loss**, and a zero gets no sign. -/
theorem fit?_of_fits {n : ℤ} {s : Nat} (h : Fits (n / pow10 s)) :
    ∃ d, fit? (decide (n < 0)) n.natAbs s = some d ∧ d.HasPlainZero ∧ d.value = n / pow10 s := by
  obtain ⟨k, hk, hdvd, hc, hs⟩ := exists_zeros_of_fits h
  obtain ⟨d, hd, hn, j, hj, hscale, hcoefficient⟩ := fit?_of_dvd (decide (n < 0)) hk hdvd hc hs
  have hsigned : d.signed * pow10 j = n := by
    unfold signed
    rw [hn]
    by_cases hneg : n < 0
    · rw [if_pos (decide_eq_true hneg), Int.neg_mul, ← Int.natCast_mul, hcoefficient]
      omega
    · rw [if_neg (by simpa using hneg), ← Int.natCast_mul, hcoefficient]
      omega
  refine ⟨d, hd, fun hzero => ?_, ?_⟩
  · rw [isZero, beq_iff_eq] at hzero
    rw [hzero, Nat.zero_mul] at hcoefficient
    rw [hn, decide_eq_false_iff_not]
    omega
  · rw [value_eq_div, hscale, div_eq_div_iff (cast_pow10_pos _).ne' (cast_pow10_pos _).ne',
      ← hsigned, ← Nat.sub_add_cancel hj, pow10_add, Nat.add_sub_cancel]
    push_cast
    ring

/-! ### Sums and differences -/

/-- Two quotients by powers of ten, brought to the larger scale. -/
theorem div_pow10_add_div_pow10 (x y : ℤ) (i j : Nat) :
    (x / pow10 i + y / pow10 j : ℚ)
      = (x * pow10 (Nat.max i j - i) + y * pow10 (Nat.max i j - j) : ℤ) / pow10 (Nat.max i j) := by
  have hx : (pow10 (Nat.max i j) : ℚ) = pow10 i * pow10 (Nat.max i j - i) := by
    rw [← Nat.cast_mul, ← pow10_add, Nat.add_sub_cancel' (Nat.le_max_left i j)]
  have hy : (pow10 (Nat.max i j) : ℚ) = pow10 j * pow10 (Nat.max i j - j) := by
    rw [← Nat.cast_mul, ← pow10_add, Nat.add_sub_cancel' (Nat.le_max_right i j)]
  push_cast
  rw [add_div, hx, mul_div_mul_right _ _ (cast_pow10_pos _).ne', ← hx, hy,
    mul_div_mul_right _ _ (cast_pow10_pos _).ne']

/-- The sum of two quotients by powers of ten is exact if it fits. -/
theorem sumOf_of_fits {x y : ℤ} {i j : Nat} (h : Fits (x / pow10 i + y / pow10 j)) :
    ∃ d, sumOf x i y j = some d ∧ d.HasPlainZero ∧ d.value = x / pow10 i + y / pow10 j := by
  rw [div_pow10_add_div_pow10] at h ⊢
  exact fit?_of_fits h

/-- **A sum that fits** is exact.  It is no zero with a sign unless an operand is one. -/
theorem add_of_fits {a b : Decimal} (h : Fits (a.value + b.value)) :
    ∃ c, a.add b = some c ∧ c.value = a.value + b.value ∧
      (a.HasPlainZero → b.HasPlainZero → c.HasPlainZero) := by
  unfold add
  split
  · rename_i ha
    exact ⟨b, rfl, by rw [isZero_iff_value_eq.1 ha, zero_add], fun _ hb => hb⟩
  · split
    · rename_i hb
      exact ⟨a, rfl, by rw [isZero_iff_value_eq.1 hb, add_zero], fun ha _ => ha⟩
    · rw [value_eq_div a, value_eq_div b] at h ⊢
      obtain ⟨c, hc, hzero, hvalue⟩ := sumOf_of_fits h
      exact ⟨c, hc, hvalue, fun _ _ => hzero⟩

/-- **A difference that fits** is exact.  It is no zero with a sign unless an operand is one. -/
theorem sub_of_fits {a b : Decimal} (h : Fits (a.value - b.value)) :
    ∃ c, a.sub b = some c ∧ c.value = a.value - b.value ∧
      (a.HasPlainZero → b.HasPlainZero → c.HasPlainZero) := by
  unfold sub
  split
  · rename_i ha
    refine ⟨_, rfl, ?_⟩
    rw [isZero_iff_value_eq.1 ha, zero_sub]
    split
    · rename_i hb
      exact ⟨by rw [isZero_iff_value_eq.1 hb, neg_zero], fun _ hplain => hplain⟩
    · rename_i hb
      exact ⟨value_neg b, fun _ _ hzero => absurd hzero hb⟩
  · -- A difference with zero keeps the digits of the other number as they are.
    split
    · rename_i hb
      exact ⟨a, rfl, by rw [isZero_iff_value_eq.1 hb, sub_zero], fun ha _ => ha⟩
    · have hvalue : a.value - b.value
          = a.signed / pow10 a.scale + ((-b.signed : ℤ) : ℚ) / pow10 b.scale := by
        rw [value_eq_div a, value_eq_div b, Int.cast_neg, neg_div, sub_eq_add_neg]
      rw [hvalue] at h ⊢
      obtain ⟨c, hc, hzero, hexact⟩ := sumOf_of_fits h
      exact ⟨c, hc, hexact, fun _ _ => hzero⟩

/-! ### Sums of lists -/

/-- Every sum on the way through the amounts fits. -/
def SumsFit (amounts : List Decimal) : Prop :=
  ∀ part, part <+: amounts → Fits (part.map value).sum

/-- Amounts added to a total, one after the other, if every sum on the way fits. -/
theorem foldlM_add_of_fits {total : Decimal} {amounts : List Decimal}
    (h : ∀ part, part <+: amounts → Fits (total.value + (part.map value).sum)) :
    ∃ s, amounts.foldlM add total = some s ∧ s.value = total.value + (amounts.map value).sum ∧
      (total.HasPlainZero → (∀ a ∈ amounts, a.HasPlainZero) → s.HasPlainZero) := by
  induction amounts generalizing total with
  | nil => exact ⟨total, rfl, by simp, fun htotal _ => htotal⟩
  | cons a rest ih =>
    have hfirst : Fits (total.value + a.value) := by
      simpa using h [a] (List.prefix_append [a] rest)
    obtain ⟨c, hc, hvalue, hplain⟩ := add_of_fits hfirst
    -- Behind the first amount, the sums on the way are those that begin with it.
    have hrest : ∀ part, part <+: rest → Fits (c.value + (part.map value).sum) := by
      intro part hpart
      have hlonger := h (a :: part) (List.cons_prefix_cons.2 ⟨rfl, hpart⟩)
      rwa [List.map_cons, List.sum_cons, ← add_assoc, ← hvalue] at hlonger
    obtain ⟨s, hs, hsum, hrestplain⟩ := ih hrest
    refine ⟨s, ?_, ?_, fun htotal hall => ?_⟩
    · rw [List.foldlM_cons, hc]
      exact hs
    · rw [hsum, hvalue, List.map_cons, List.sum_cons, add_assoc]
    · rw [List.forall_mem_cons] at hall
      exact hrestplain (hplain htotal hall.1) hall.2

/-- **Amounts add up exactly** if every sum on the way fits. -/
theorem sum?_of_sumsFit {amounts : List Decimal} (h : SumsFit amounts) :
    ∃ s, sum? amounts = some s ∧ s.value = (amounts.map value).sum ∧
      ((∀ a ∈ amounts, a.HasPlainZero) → s.HasPlainZero) := by
  have hzero : ∀ part, part <+: amounts → Fits (zero.value + (part.map value).sum) := by
    intro part hpart
    rw [value_zero, zero_add]
    exact h part hpart
  obtain ⟨s, hs, hvalue, hplain⟩ := foldlM_add_of_fits hzero
  rw [value_zero, zero_add] at hvalue
  exact ⟨s, hs, hvalue, hplain fun _ => rfl⟩

end Decimal

end Payroll
