import Payroll.Error
import Payroll.Text.Bytes

namespace Payroll

/-!
# Periods as bytes

A period can also be read from the bytes of a text, with the checks made byte by byte.

Main definitions:

* `Period.isDigitByte`: the bytes of digits.
* `Period.readBytes`: the period of a text.
-/

open Numeral Text

namespace Period

/-- The bytes of ASCII digits. -/
def isDigitByte (b : UInt8) : Bool := 48 ≤ b && b ≤ 57

/-- The period of two numerals. -/
def ofNumerals? (ys ms : List Char) : Option Period := do
  let year ← value? 10 ys
  let month ← value? 10 ms
  ofParts? year month

/-- Reads a period from the bytes of a text.  There have to be seven of them, the fifth one a hyphen
    and the others digits; then the two numbers are cut out of the text.  There is no answer at all
    if a byte is asked for that is not there or if a cut would go through a character. -/
def readBytes (s : String) : Option (Except EngineError Period) :=
  let bs := bytes s
  if bs.length ≠ 7 then some (.error (.invalidPeriod s))
  else do
    let hyphen ← bs[4]?
    if hyphen ≠ 45 then some (.error (.invalidPeriod s))
    else if (bs.take 4 ++ bs.drop 5).all isDigitByte then
      let (ys, _) ← cut? 4 s.toList
      let (_, ms) ← cut? 5 s.toList
      match ofNumerals? ys ms with
      | some p => some (.ok p)
      | none => some (.error (.invalidPeriod s))
    else some (.error (.invalidPeriod s))

end Period

end Payroll
