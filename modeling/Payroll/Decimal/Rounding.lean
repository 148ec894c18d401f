import Payroll.Decimal.Basic

namespace Payroll

/-!
# Rounding

Two ways to round a quotient of natural numbers to a whole number, and what is built on them.

Main definitions:

* `divHalfEven`, `divHalfUp`: the nearest whole number, ties to even and ties up.
* `Decimal.fit?`: any coefficient and scale brought within bounds by dropping the fewest low
  digits, ties to even.
* `Decimal.roundTo`: at most so many fractional digits, ties away from zero.
* `Decimal.padTo`: zeros appended up to so many fractional digits, as far as they fit.
* `roundMoney`: amounts of money have two fractional digits.
-/

/-- The whole number nearest to `n / d`; of two equally near ones the even one. -/
def divHalfEven (n d : Nat) : Nat :=
  if 2 * (n % d) > d ∨ 2 * (n % d) = d ∧ n / d % 2 = 1 then n / d + 1 else n / d

/-- The whole number nearest to `n / d`; of two equally near ones the greater one. -/
def divHalfUp (n d : Nat) : Nat := (2 * n + d) / (2 * d)

/-- Dividing by two or more never rounds above the number itself. -/
theorem divHalfUp_le (n : Nat) {d : Nat} (h : 2 ≤ d) : divHalfUp n d ≤ n := by
  cases n with
  | zero =>
    have hd : d / (2 * d) = 0 := Nat.div_eq_of_lt (by omega)
    simp [divHalfUp, hd]
  | succ n =>
    refine Nat.div_le_of_le_mul ?_
    have h1 : 2 * 1 ≤ d * (n + 1) := Nat.mul_le_mul h (by omega)
    have h2 : d * (n + 1) + (d * (n + 1)) = 2 * d * (n + 1) := by
      rw [Nat.mul_assoc, Nat.two_mul]
    have h3 : d ≤ d * (n + 1) := Nat.le_mul_of_pos_right d (by omega)
    have h4 : 2 * (n + 1) ≤ d * (n + 1) := Nat.mul_le_mul_right (n + 1) h
    omega

namespace Decimal

/-- The number `± c / 10 ^ s` with the fewest low digits dropped that leave both parts within
    bounds, ties going to even; `none` if dropping all fractional digits is not enough. -/
def fit? (negative : Bool) (c s : Nat) : Option Decimal :=
  (List.range (s + 1)).findSome? fun k => ofParts? negative (divHalfEven c (pow10 k)) (s - k)

/-- Rounds to at most `places` fractional digits, ties away from zero.  What becomes zero by
    rounding is positive; what was zero before keeps its sign. -/
def roundTo (places : Nat) (d : Decimal) : Decimal :=
  if h : d.scale ≤ places then d
  else
    { negative :=
        d.negative && (d.isZero || divHalfUp d.coefficient (pow10 (d.scale - places)) != 0)
      coefficient := divHalfUp d.coefficient (pow10 (d.scale - places))
      scale := places
      coefficient_le := by
        refine Nat.le_trans (divHalfUp_le _ ?_) d.coefficient_le
        have h10 : pow10 1 ≤ pow10 (d.scale - places) := pow10_le (by omega)
        exact Nat.le_trans (by decide) h10
      scale_le := Nat.le_trans (by omega) d.scale_le }

/-- Appends zeros up to `places` fractional digits, as many as the coefficient has room for. -/
def padTo (places : Nat) (d : Decimal) : Decimal :=
  ((List.range (places - d.scale + 1)).reverse.findSome? fun k =>
    ofParts? d.negative (d.coefficient * pow10 k) (d.scale + k)).getD d

end Decimal

/-- Rounds an amount to two fractional digits, ties away from zero, and shows both of them
    wherever they fit. -/
def roundMoney (amount : Decimal) : Decimal := (amount.roundTo 2).padTo 2

end Payroll
