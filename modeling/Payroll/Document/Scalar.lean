import Payroll.Numeral
import Payroll.Power

namespace Payroll.Scalar

/-!
# Bare scalars

A scalar without quotes is a number, a truth value or nothing at all if it is spelled like one;
otherwise it is text.

Main definitions:

* `isNull`, `bool?`: the spellings of nothing and of the truth values.
* `unsigned?`, `signed?`: whole numbers in base ten, or in base two, eight or sixteen behind a
  mark.
* `isSpecial`: the spellings of an infinite number and of no number.
* `fraction?`: numbers with a point or an exponent.
-/

/-- The spellings of nothing. -/
def isNull (s : String) : Bool := ["", "~", "null", "Null", "NULL"].contains s

/-- The spellings of the truth values. -/
def bool? (s : String) : Option Bool :=
  if ["true", "True", "TRUE"].contains s then some true
  else if ["false", "False", "FALSE"].contains s then some false
  else none

/-- The number of at least one digit. -/
def digits? (base : Nat) (cs : List Char) : Option Nat :=
  if cs.isEmpty then none else Numeral.value? base cs

/-- Drops one sign. -/
def dropSign : List Char → List Char
  | '-' :: rest => rest
  | '+' :: rest => rest
  | cs => cs

/-- Digits only, with a leading zero that is not the whole number: a label and no number. -/
def isPadded (cs : List Char) : Bool :=
  match dropSign cs with
  | '0' :: rest => !rest.isEmpty && rest.all Char.isDigit
  | _ => false

/-- A number behind the mark of its base. -/
def marked? : List Char → Option Nat
  | '0' :: 'x' :: rest => digits? 16 rest
  | '0' :: 'o' :: rest => digits? 8 rest
  | '0' :: 'b' :: rest => digits? 2 rest
  | _ => none

/-- Drops a plus sign. -/
def dropPlus : List Char → List Char
  | '+' :: rest => rest
  | cs => cs

/-- A natural number, perhaps behind a plus sign. -/
def unsigned? (cs : List Char) : Option Nat :=
  let cs := dropPlus cs
  marked? cs <|> if isPadded cs then none else digits? 10 cs

/-- A whole number. -/
def signed? (cs : List Char) : Option Int :=
  match cs with
  | '-' :: rest => (marked? rest <|> if isPadded rest then none else digits? 10 rest).map (-·)
  | _ => (unsigned? cs).map fun n => n

/-- Has the number at most 128 bits, with or without a sign?  Longer ones are no whole numbers. -/
def isWhole (n : Int) : Bool := decide (-(pow2 127 : Int) ≤ n ∧ n < pow2 128)

/-- The spellings of an infinite number and of no number. -/
def isSpecial (s : String) : Bool :=
  [".inf", ".Inf", ".INF", "+.inf", "+.Inf", "+.INF", "-.inf", "-.Inf", "-.INF",
   ".nan", ".NaN", ".NAN"].contains s

/-- The exponent behind `e` or `E`; none at all counts as zero. -/
def exponent? : List Char → Option Int
  | [] => some 0
  | e :: rest =>
    if e = 'e' ∨ e = 'E' then
      match rest with
      | '-' :: ds => (digits? 10 ds).map (-·)
      | _ => (digits? 10 (dropPlus rest)).map fun n => n
    else none

/-- Numbers from this one on are too large for double precision. -/
def tooLarge : Nat := pow2 1024 - pow2 970

/-- Exponents outside these bounds make any number vanish, or too large. -/
def exponentBound : Nat := 4096

/-- A number `m * 10 ^ e` without its sign, as `m` and `e`; `none` if it is too large.  A vanishing
    one is zero. -/
def magnitude? (cs : List Char) : Option (Nat × Int) := do
  let whole := cs.takeWhile Char.isDigit
  let rest := cs.drop whole.length
  let (places, rest) :=
    match rest with
    | '.' :: rest => (rest.takeWhile Char.isDigit, rest.dropWhile Char.isDigit)
    | _ => ([], rest)
  let m ← digits? 10 (whole ++ places)
  let e := (← exponent? rest) - places.length
  if m = 0 ∨ e + whole.length + places.length < -exponentBound then some (0, 0)
  else if e > exponentBound ∨ tooLarge * pow10 (-e).toNat ≤ m * pow10 e.toNat then none
  else some (m, e)

/-- A number with a point or an exponent: its sign and its magnitude. -/
def fraction? (cs : List Char) : Option (Bool × Nat × Int) :=
  match cs with
  | '-' :: rest => (magnitude? rest).map fun x => (true, x)
  | _ => (magnitude? (dropPlus cs)).map fun x => (false, x)

end Payroll.Scalar
