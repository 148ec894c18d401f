import Payroll.Decimal.Rounding

namespace Payroll

/-!
# Decimal arithmetic

The four operations; `none` is a result out of bounds.  Sums and products are exact whenever the
exact result fits, and otherwise lose their lowest digits, ties going to even.  Quotients are
carried out by long division.

Main definitions:

* `Decimal.add`, `Decimal.sub`: aligned to the larger scale; a zero operand leaves the other one
  as it is written.
* `Decimal.mul`: the product of the coefficients at the sum of the scales.
* `Decimal.longDivision`: digits of a quotient, up to nine at a time, until it ends or is full.
* `Decimal.div`: the quotient, the zeros that long division overshot removed.
-/

namespace Decimal

/-! ### Sums and differences -/

/-- The exact sum `x / 10 ^ i + y / 10 ^ j` of two signed coefficients, brought within bounds. -/
def sumOf (x : Int) (i : Nat) (y : Int) (j : Nat) : Option Decimal :=
  let s := Nat.max i j
  let n := x * pow10 (s - i) + y * pow10 (s - j)
  fit? (decide (n < 0)) n.natAbs s

/-- The sum; if one operand is zero, the other one unchanged. -/
def add (a b : Decimal) : Option Decimal :=
  if a.isZero then some b
  else if b.isZero then some a
  else sumOf a.signed a.scale b.signed b.scale

/-- The difference; if one operand is zero, the other one unchanged but for its sign. -/
def sub (a b : Decimal) : Option Decimal :=
  if a.isZero then some (if b.isZero then b else b.neg)
  else if b.isZero then some a
  else sumOf a.signed a.scale (-b.signed) b.scale

/-! ### Products -/

/-- A coefficient of at most thirty-two bits. -/
def isShort (d : Decimal) : Bool := d.coefficient < pow2 32

/-- The product.  One of short numbers vanishes without sign and scale beyond forty-seven
    fractional digits, and without sign if rounding makes it zero. -/
def mul (a b : Decimal) : Option Decimal :=
  let product := fit? (a.negative != b.negative) (a.coefficient * b.coefficient) (a.scale + b.scale)
  if a.isZero || b.isZero then some zero
  else if a.isShort && b.isShort then
    if a.scale + b.scale > 47 then some zero else product.map dropZeroSign
  else product

/-! ### Quotients -/

/-- How many more digits, nine at most, a quotient of coefficient `q` and scale `s` has room
    for. -/
def room (q : Nat) (s : Int) : Nat :=
  ((List.range 10).reverse.find? fun p : Nat =>
    decide (s + p ≤ maxScale ∧ q * pow10 p ≤ maxCoefficient)).getD 0

/-- The room for digits ends where the scale does. -/
theorem room_le {q : Nat} {s : Int} (h : room q s ≠ 0) : s + room q s ≤ maxScale := by
  unfold room at h ⊢
  cases hf : (List.range 10).reverse.find? fun p : Nat =>
      decide (s + p ≤ maxScale ∧ q * pow10 p ≤ maxCoefficient) with
  | none => exact absurd (by rw [hf]; rfl) h
  | some p =>
    have := List.find?_some hf
    simp only [decide_eq_true_eq] at this
    simpa using this.1

/-- The digits of a quotient, `q` of them found at scale `s` with remainder `r` over the divisor.

    A division that has come out even ends there.  Otherwise up to nine more digits are taken at
    a time.  With no room for another digit the remainder rounds the last one, ties to even; if
    the digits taken overrun the room, the last one is dropped and rounds the one before it, ties
    to even for a divisor of at most sixty-four bits and upwards for a longer one.  The answer is a
    coefficient and a scale, or `none` if digits in front of the point are missing. -/
def longDivision (divisor q r : Nat) (s : Int) : Option (Nat × Nat) :=
  if r = 0 then
    if 0 ≤ s then some (q, s.toNat) else some (q * pow10 (-s).toNat, 0)
  else
    let p := room q s
    if p < 9 ∧ s + p < 0 then none
    else if hp : p = 0 then
      let rounded := if 2 * r > divisor ∨ 2 * r = divisor ∧ q % 2 = 1 then q + 1 else q
      if rounded ≤ maxCoefficient then some (rounded, s.toNat)
      else if s = 0 then none
      else some ((rounded + 5) / 10, s.toNat - 1)
    else
      let longer := q * pow10 p + r * pow10 p / divisor
      let left := r * pow10 p % divisor
      if longer ≤ maxCoefficient then longDivision divisor longer left (s + p)
      else if s + p ≤ 0 then none
      else
        let kept := longer / 10
        let dropped := longer % 10
        let up := dropped > 5 ∨ dropped = 5 ∧ (left ≠ 0 ∨ kept % 2 = 1 ∨ pow2 64 ≤ divisor)
        some (if up then kept + 1 else kept, (s + p).toNat - 1)
termination_by ((maxScale : Int) - s).toNat
decreasing_by
  have := room_le hp
  omega

/-- Removes `k` zeros at the end of a coefficient, if it has them, they are fractional and `2 ^ b`
    divides it. -/
def stripZeros (k b : Nat) (x : Nat × Nat) : Nat × Nat :=
  if x.1 % pow2 b = 0 ∧ k ≤ x.2 ∧ x.1 % pow10 k = 0 then (x.1 / pow10 k, x.2 - k) else x

/-- Removes the zeros at the end of an unending quotient in groups of eight, four, two and one. -/
def tidy (x : Nat × Nat) : Nat × Nat :=
  stripZeros 1 1 (stripZeros 2 2 (stripZeros 4 4
    (stripZeros 8 32 (stripZeros 8 32 (stripZeros 8 32 x)))))

/-- The quotient, for a divisor other than zero. -/
def div (a b : Decimal) : Option Decimal :=
  if a.isZero then some zero
  else do
    let q := a.coefficient / b.coefficient
    let r := a.coefficient % b.coefficient
    let x ← longDivision b.coefficient q r (a.scale - b.scale)
    let (c, s) := if r = 0 then x else tidy x
    (ofParts? (a.negative != b.negative) c s).map dropZeroSign

end Decimal

end Payroll
