import Payroll.Proofs.Decimal.Places

namespace Payroll

/-!
# Rounded amounts of money

Every amount is rounded to cents, whatever sign, size and scale it has: first to two fractional
digits, and then to exactly two of them if the coefficient has room for both.

* `isNearestMultiple_roundMoney` — rounding gives the nearest number of cents.
* `scale_roundMoney_of_fits` — the amount has two fractional digits wherever they fit.
* `roundMoney_roundMoney`, `roundMoney_mono`, `value_roundMoney_neg` — rounding again changes
  nothing, and rounding keeps order and opposites.
* `roundMoney_within_half_cent` — **all of it together**.
-/

open Decimal

variable {x y : Decimal}

/-- Rounding gives the nearest number of cents. -/
theorem isNearestMultiple_roundMoney (x : Decimal) :
    IsNearestMultiple (1 / 100) x.value (roundMoney x).value := by
  rw [roundMoney, value_padTo]
  exact isNearestMultiple_roundTo 2 x

/-- Both fractional digits are there if the coefficient has room for that many cents. -/
theorem scale_roundMoney_of_fits {n : ℤ} (hn : n.natAbs ≤ maxCoefficient)
    (h : (roundMoney x).value = n / 100) :
    (roundMoney x).scale = 2 := by
  -- A decimal of that value with two fractional digits has no more of them than the rounded amount.
  let cents : Decimal := ⟨decide (n < 0), n.natAbs, 2, hn, by decide⟩
  have hsigned : cents.signed = n := by
    simp only [cents, signed, decide_eq_true_eq]
    split <;> omega
  have hvalue : cents.value = n / 100 := by
    rw [value_eq_div, hsigned]
    rfl
  have hpadded : cents.IsPadded 2 := ⟨le_rfl, fun hlt => absurd hlt (lt_irrefl 2)⟩
  exact le_antisymm (scale_roundMoney_le x)
    ((isPadded_roundMoney x).scale_le_scale hpadded (h.trans hvalue.symm))

/-- Nothing is left to round. -/
theorem roundMoney_roundMoney (x : Decimal) : roundMoney (roundMoney x) = roundMoney x := by
  have hscale : (roundMoney x).scale ≤ 2 := scale_roundMoney_le x
  have hround : roundMoney (roundMoney x) = (roundMoney x).padTo 2 := by
    rw [roundMoney, roundTo_of_scale_le hscale]
  obtain ⟨_, _, hsign, _, _⟩ := padTo_spec 2 (roundMoney x)
  rw [hround]
  exact (isPadded_padTo (by decide) hscale).ext (isPadded_roundMoney x) hsign (value_padTo 2 _)

/-- Rounding keeps the order. -/
theorem roundMoney_mono (h : x ≤ y) : roundMoney x ≤ roundMoney y :=
  le_iff_value_le.2
    ((isNearestMultiple_roundMoney x).mono (le_iff_value_le.1 h) (isNearestMultiple_roundMoney y))

/-- Rounding does not tell an amount from its opposite. -/
theorem value_roundMoney_neg (x : Decimal) : (roundMoney x.neg).value = -(roundMoney x).value := by
  rw [value_roundMoney, value_roundMoney, value_neg, nearestCents_eq, nearestCents_eq, neg_mul,
    nearestWhole_neg, Int.cast_neg, neg_div]

/-- **Rounding to cents.**  For every amount:

    * what it is rounded to is the one number of cents that is half a cent away at most, and of two
      such numbers the one that is farther from zero than the amount;
    * the result has two fractional digits if there is room for that many cents in a coefficient;
    * rounding it again gives the very same decimal;
    * greater amounts are not rounded to less, and opposite ones are rounded to opposite numbers. -/
theorem roundMoney_within_half_cent (x : Decimal) :
    (∀ r : ℚ, ((∃ k : ℤ, r = k * (1 / 100)) ∧ |r - x.value| ≤ 1 / 200 ∧
        (|r - x.value| = 1 / 200 → |x.value| < |r|)) ↔ r = (roundMoney x).value) ∧
      (∀ n : ℤ, n.natAbs ≤ maxCoefficient → (roundMoney x).value = n / 100 →
        (roundMoney x).scale = 2) ∧
      roundMoney (roundMoney x) = roundMoney x ∧
      (∀ y, x ≤ y → roundMoney x ≤ roundMoney y) ∧
      (roundMoney x.neg).value = -(roundMoney x).value := by
  refine ⟨fun r => ?_, fun n => scale_roundMoney_of_fits, roundMoney_roundMoney x,
    fun y => roundMoney_mono, value_roundMoney_neg x⟩
  rw [show (1 / 200 : ℚ) = 1 / 100 / 2 by norm_num, ← isNearestMultiple_iff (by norm_num)]
  constructor
  · exact fun hr => hr.unique (isNearestMultiple_roundMoney x)
  · rintro rfl
    exact isNearestMultiple_roundMoney x

/-- Rounding can carry into a new digit, and an amount without room for another digit stays
    as it is. -/
example :
    roundMoney ⟨true, 99995, 4, by decide, by decide⟩ = ⟨true, 1000, 2, by decide, by decide⟩ ∧
    roundMoney ⟨false, maxCoefficient, 0, by decide, by decide⟩
      = ⟨false, maxCoefficient, 0, by decide, by decide⟩ := by
  decide +kernel

end Payroll
