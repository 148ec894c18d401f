import Payroll.Numeral
import Payroll.Text.Extending
import Payroll.Text.Unprinted

namespace Payroll.Text

/-!
# Properties of characters

What is decided by tables of code points, which are closed ranges in ascending order.

Main definitions:

* `isBlank`: white space; a text of blanks only names nobody.
* `isInvisible`: characters that leave no mark of their own where they are printed.
* `quoteChar`: a character in single quotes, escaped where it would not show.
-/

/-- Does one of the closed ranges contain `n`? -/
def inRanges (ranges : List (Nat × Nat)) (n : Nat) : Bool :=
  ranges.any fun r => r.1 ≤ n && n ≤ r.2

/-- White space: the twenty-five characters of that Unicode property. -/
def blankRanges : List (Nat × Nat) :=
  [(0x09, 0x0D), (0x20, 0x20), (0x85, 0x85), (0xA0, 0xA0), (0x1680, 0x1680), (0x2000, 0x200A),
   (0x2028, 0x2029), (0x202F, 0x202F), (0x205F, 0x205F), (0x3000, 0x3000)]

/-- A white space character. -/
def isBlank (c : Char) : Bool := inRanges blankRanges c.toNat

/-- Every character that the core library calls white space is blank. -/
theorem isBlank_of_isWhitespace {c : Char} (h : c.isWhitespace = true) : isBlank c = true := by
  simp only [Char.isWhitespace, Bool.or_eq_true, decide_eq_true_eq] at h
  rcases h with ((h | h) | h) | h <;> subst h <;> decide

/-- A character that leaves no mark of its own where it is printed: it has no printed form, or it
    joins the character before it. -/
def isInvisible (c : Char) : Bool :=
  inRanges unprintedRanges c.toNat || inRanges extendingRanges c.toNat

/-- The hexadecimal digits of a code point, without leading zeros. -/
def hexDigits (n : Nat) : List Char :=
  match (Numeral.fixedDigits 16 8 n).dropWhile (· == '0') with
  | [] => ['0']
  | ds => ds

/-- A character inside single quotes: the usual short escapes, and the code point for other
    characters that would not show. -/
def escapeChar (c : Char) : List Char :=
  if c = Char.ofNat 0 then ['\\', '0']
  else if c = '\t' then ['\\', 't']
  else if c = '\r' then ['\\', 'r']
  else if c = '\n' then ['\\', 'n']
  else if c = '\'' then ['\\', '\'']
  else if c = '\\' then ['\\', '\\']
  else if isInvisible c then ['\\', 'u', '\x7b'] ++ hexDigits c.toNat ++ ['\x7d']
  else [c]

/-- A character in single quotes, escaped where it would not show. -/
def quoteChar (c : Char) : String := String.ofList ('\'' :: escapeChar c ++ ['\''])

end Payroll.Text
