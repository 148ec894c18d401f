import Payroll.Formula.Expr

namespace Payroll.Formula

/-!
# From text to tokens

A formula is split from left to right, every number and every name being as long as it can be.
No character outside the ones named here gets through.

Main definitions:

* `isSpace`, `isNumeral`, `isNameStart`, `isNamePart`: the classes of characters, ASCII only.
* `symbol?`: the operators and punctuation marks of one or two characters.
* `tokensFrom`, `tokens`: the tokens of a text.
-/

/-- White space between tokens: space, tab, line feed, form feed and carriage return. -/
def isSpace (c : Char) : Bool :=
  c == ' ' || c == '\t' || c == '\n' || c == '\x0c' || c == '\r'

/-- What numbers are written in. -/
def isNumeral (c : Char) : Bool := c.isDigit || c == '.'

/-- What names begin with. -/
def isNameStart (c : Char) : Bool := c.isAlpha || c == '_'

/-- What names go on with. -/
def isNamePart (c : Char) : Bool := c.isAlphanum || c == '_'

/-- The operator or punctuation mark that begins with `c`, and whether it takes up the next
    character, too. -/
def symbol? (c : Char) (next : Option Char) : Option (Token × Bool) :=
  match c, next with
  | '<', some '=' => some (.compare .le, true)
  | '>', some '=' => some (.compare .ge, true)
  | '=', some '=' => some (.compare .eq, true)
  | '!', some '=' => some (.compare .ne, true)
  | '<', _ => some (.compare .lt, false)
  | '>', _ => some (.compare .gt, false)
  | '+', _ => some (.arith .add, false)
  | '-', _ => some (.arith .sub, false)
  | '*', _ => some (.arith .mul, false)
  | '/', _ => some (.arith .div, false)
  | '(', _ => some (.leftParen, false)
  | ')', _ => some (.rightParen, false)
  | ',', _ => some (.comma, false)
  | _, _ => none

/-- The number that digits and points stand for. -/
def numeral (literal : List Char) : Except FormulaError Decimal :=
  match Decimal.parse? literal with
  | some d => .ok d
  | none => .error (.invalidNumber (String.ofList literal))

/-- Dropping leading characters leaves no more than there were. -/
theorem length_dropWhile_le (p : Char → Bool) (cs : List Char) :
    (cs.dropWhile p).length ≤ cs.length :=
  (List.dropWhile_suffix p).length_le

/-- The tokens of a text that begins at the given position. -/
def tokensFrom (position : Nat) (cs : List Char) : Except FormulaError (List Token) :=
  match cs with
  | [] => .ok []
  | c :: cs =>
    if isSpace c then tokensFrom (position + 1) cs
    else if isNumeral c then do
      let digits := c :: cs.takeWhile isNumeral
      let value ← numeral digits
      let rest ← tokensFrom (position + digits.length) (cs.dropWhile isNumeral)
      return .number value :: rest
    else if isNameStart c then do
      let letters := c :: cs.takeWhile isNamePart
      let rest ← tokensFrom (position + letters.length) (cs.dropWhile isNamePart)
      return .name (String.ofList letters) :: rest
    else
      match symbol? c cs.head? with
      | some (token, false) => do return token :: (← tokensFrom (position + 1) cs)
      | some (token, true) => do return token :: (← tokensFrom (position + 2) cs.tail)
      | none => .error (.disallowedCharacter c position)
termination_by cs.length
decreasing_by
  all_goals simp only [List.length_cons, List.length_tail]
  · omega
  · have := length_dropWhile_le isNumeral cs
    omega
  · have := length_dropWhile_le isNamePart cs
    omega
  · omega
  · omega

/-- The tokens of a text. -/
def tokens (text : String) : Except FormulaError (List Token) := tokensFrom 0 text.toList

end Payroll.Formula
