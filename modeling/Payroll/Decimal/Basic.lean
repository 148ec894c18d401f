import Payroll.Power

namespace Payroll

/-!
# Decimal numbers

A decimal is a sign, a whole coefficient of at most ninety-six bits and a scale of at most
twenty-eight: it stands for `± coefficient / 10 ^ scale`.  The scale belongs to the number
(`1.5` and `1.50` are two decimals of one value), and so does the sign of zero.

Main definitions:

* `Decimal`: the numbers, their bounds being part of the type.
* `Decimal.value`: the rational number a decimal stands for; laws are stated through it.
* `Decimal.SameValue`, `<` and `≤`: comparison by value, computed on whole numbers.
* `Decimal.ofParts?`: a decimal from its three parts, if they are within bounds.
* `Decimal.toNat?`: the natural number a decimal stands for, if it is one.
-/

/-- The greatest coefficient, `2 ^ 96 - 1`. -/
def Decimal.maxCoefficient : Nat := 79228162514264337593543950335

/-- The greatest number of fractional digits. -/
def Decimal.maxScale : Nat := 28

/-- The number `± coefficient / 10 ^ scale`. -/
structure Decimal where
  /-- The sign; a zero may carry one too. -/
  negative : Bool
  /-- All digits, fractional ones included. -/
  coefficient : Nat
  /-- How many of the digits are fractional. -/
  scale : Nat
  coefficient_le : coefficient ≤ Decimal.maxCoefficient := by decide
  scale_le : scale ≤ Decimal.maxScale := by decide
  deriving DecidableEq, Repr

namespace Decimal

/-- A decimal from its parts, or `none` if one of them is out of bounds. -/
def ofParts? (negative : Bool) (coefficient scale : Nat) : Option Decimal :=
  if h : coefficient ≤ maxCoefficient ∧ scale ≤ maxScale then
    some ⟨negative, coefficient, scale, h.1, h.2⟩
  else
    none

/-- The whole number `n`, or the greatest decimal if `n` is beyond it. -/
def ofNat (n : Nat) : Decimal where
  negative := false
  coefficient := min n maxCoefficient
  scale := 0
  coefficient_le := Nat.min_le_right ..

/-- Zero, without fractional digits. -/
def zero : Decimal := ⟨false, 0, 0, by decide, by decide⟩

/-- One, without fractional digits. -/
def one : Decimal := ⟨false, 1, 0, by decide, by decide⟩

/-- One hundred, without fractional digits. -/
def hundred : Decimal := ⟨false, 100, 0, by decide, by decide⟩

instance : Inhabited Decimal := ⟨zero⟩

/-! ### Value and comparison -/

/-- The coefficient with its sign. -/
def signed (d : Decimal) : Int :=
  if d.negative then -(d.coefficient : Int) else d.coefficient

/-- The rational number that a decimal stands for. -/
def value (d : Decimal) : Rat := mkRat d.signed (pow10 d.scale)

/-- A zero of either sign and any scale. -/
def isZero (d : Decimal) : Bool := d.coefficient == 0

/-- Two decimals of one value: cross-multiplied, their coefficients agree. -/
def SameValue (a b : Decimal) : Prop := a.signed * pow10 b.scale = b.signed * pow10 a.scale

instance (a b : Decimal) : Decidable (a.SameValue b) :=
  inferInstanceAs (Decidable (_ = (_ : Int)))

instance : LT Decimal := ⟨fun a b => a.signed * pow10 b.scale < b.signed * pow10 a.scale⟩

instance : LE Decimal := ⟨fun a b => a.signed * pow10 b.scale ≤ b.signed * pow10 a.scale⟩

instance (a b : Decimal) : Decidable (a < b) := inferInstanceAs (Decidable ((_ : Int) < _))

instance (a b : Decimal) : Decidable (a ≤ b) := inferInstanceAs (Decidable ((_ : Int) ≤ _))

/-- The natural number of this value, if it is one; a negative sign is refused even on zero. -/
def toNat? (d : Decimal) : Option Nat :=
  if d.negative then none
  else if d.coefficient % pow10 d.scale = 0 then some (d.coefficient / pow10 d.scale)
  else none

/-! ### Sign -/

/-- The opposite sign, on zero as well. -/
def neg (d : Decimal) : Decimal := { d with negative := !d.negative }

/-- The same number without its sign. -/
def abs (d : Decimal) : Decimal := { d with negative := false }

/-- A zero loses its sign; other numbers stay. -/
def dropZeroSign (d : Decimal) : Decimal := if d.isZero then d.abs else d

/-- The greater of two numbers, the first one if their values agree. -/
def max (a b : Decimal) : Decimal := if a < b then b else a

/-- The lesser of two numbers, the first one if their values agree. -/
def min (a b : Decimal) : Decimal := if b < a then b else a

end Decimal

end Payroll
