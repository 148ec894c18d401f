import Payroll.Decimal.Rounding
import Payroll.Numeral

namespace Payroll

/-!
# Decimal numbers as text

The written form shows every digit: an optional minus sign, the whole part, and a point with
exactly `scale` digits behind it.  Reading is more lenient, and rounds what it has no room for.

Main definitions:

* `Decimal.render`, `Decimal.toString`: the written form.
* `Decimal.parse?`: a plain number, a sign, one point and separating `_` being optional.
* `Decimal.readText?`: the same with an optional exponent of ten.
-/

namespace Decimal

/-! ### Writing -/

/-- The written form, as characters. -/
def render (d : Decimal) : List Char :=
  let whole := Numeral.digits (d.coefficient / pow10 d.scale)
  let fraction := Numeral.fixedDigits 10 d.scale (d.coefficient % pow10 d.scale)
  (if d.negative then ['-'] else []) ++ whole ++ (if d.scale = 0 then [] else '.' :: fraction)

/-- The written form. -/
protected def toString (d : Decimal) : String := String.ofList d.render

instance : ToString Decimal := ⟨Decimal.toString⟩

/-! ### Reading -/

/-- The digit that no longer fits rounds what has been read, half up.  If that overruns the
    coefficient, its last digit is dropped. -/
def roundOff (c s digit : Nat) : Option (Nat × Nat) :=
  let c := if 5 ≤ digit then c + 1 else c
  if c ≤ maxCoefficient then some (c, s)
  else if s = 0 then none
  else some ((c + 4) / 10, s - 1)

/-- Behind the last place, separators in front of the digit that rounds are skipped if the digits
    up to the place before make at least this coefficient. -/
def wideCoefficient : Nat := 1844674407370954906

/-- Only digits and separators. -/
def isTail (cs : List Char) : Bool := cs.all fun c => c.isDigit || c == '_'

/-- Reads digits behind a coefficient `c` of scale `s`.  `point` tells whether the point has been
    passed and `seen` whether there was a digit, which a separator and the end of the text
    require.

    Whole digits that do not fit are refused.  The first fractional digit that does not fit rounds,
    and only digits and separators may follow it.  Behind the last place of a coefficient that is
    not wide, a separator stands for a zero that rounds. -/
def readDigits (c s : Nat) (point seen : Bool) : List Char → Option (Nat × Nat)
  | [] => if seen then some (c, s) else none
  | ch :: rest =>
    if ch = '.' then
      if point then none else readDigits c s true seen rest
    else if ch = '_' then
      if seen then readDigits c s point seen rest else none
    else
      match Numeral.digitValue? 10 ch with
      | none => none
      | some v =>
        if c * 10 + v ≤ maxCoefficient ∧ (point = true → s < maxScale) then
          let s := if point then s + 1 else s
          if s = maxScale ∧ c < wideCoefficient ∧ rest.head? = some '_' then
            if isTail rest then some (c * 10 + v, s) else none
          else readDigits (c * 10 + v) s point true rest
        else if point && isTail rest then roundOff c s v
        else none

/-- Reads a number without its sign; a zero takes none. -/
def ofUnsigned? (negative : Bool) (cs : List Char) : Option Decimal := do
  let (c, s) ← readDigits 0 0 false false cs
  ofParts? (negative && c != 0) c s

/-- Reads a number in positional form. -/
def parse? : List Char → Option Decimal
  | '-' :: rest => ofUnsigned? true rest
  | '+' :: rest => ofUnsigned? false rest
  | cs => ofUnsigned? false cs

/-- A whole number in digits, after an optional plus sign. -/
def exponent? (cs : List Char) : Option Nat :=
  let ds := if cs.head? = some '+' then cs.tail else cs
  if ds.isEmpty then none else Numeral.value? 10 ds

/-- Multiplies by `10 ^ e`: the scale shrinks, and zeros are appended once it is used up. -/
def shiftUp (e : Nat) (d : Decimal) : Option Decimal :=
  if d.isZero ∧ d.scale < e then some zero
  else ofParts? d.negative (d.coefficient * pow10 (e - d.scale)) (d.scale - e)

/-- Divides by `10 ^ e`: the scale grows, and digits beyond the last place are rounded off, ties
    away from zero. -/
def shiftDown (e : Nat) (d : Decimal) : Option Decimal :=
  let excess := d.scale + e - maxScale
  ofParts? d.negative (divHalfUp d.coefficient (pow10 excess)) (d.scale + e - excess)

/-- Reads a number with an exponent of at most twenty-eight behind `e` or `E`. -/
def parseScientific? (cs : List Char) : Option Decimal := do
  let (base, tail) := cs.span fun c => c != 'e' && c != 'E'
  let exponent ← tail.tail?
  let down := exponent.head? = some '-'
  let e ← exponent? (if down then exponent.tail else exponent)
  let d ← parse? base
  if e ≤ maxScale then if down then d.shiftDown e else d.shiftUp e else none

/-- Reads a number in positional form or with an exponent. -/
def readText? (s : String) : Option Decimal :=
  parse? s.toList <|> parseScientific? s.toList

end Decimal

end Payroll
