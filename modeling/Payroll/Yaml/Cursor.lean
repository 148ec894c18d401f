namespace Payroll.Yaml

/-!
# Places in a YAML text

Main definitions:

* `isSpace`, `isBreak`, `isAllowed`: what separates words, what ends lines, what may occur at all.
* `Cursor`: the rest of a text with the place where it begins.
* `Cursor.skip`, `Cursor.newLine`: going on within a line and to the next one.
* `Cursor.atMarker`: the line marks the bounds of a document.
-/

/-- What separates words of a line. -/
def isSpace (c : Char) : Bool := c == ' ' || c == '\t'

/-- What ends a line. -/
def isBreak (c : Char) : Bool :=
  c == '\n' || c == '\r' || c == '\u0085' || c == '\u2028' || c == '\u2029'

/-- What separates words. -/
def isGap (c : Char) : Bool := isSpace c || isBreak c

/-- The characters that a text may hold. -/
def isAllowed (c : Char) : Bool :=
  let n := c.toNat
  n == 0x09 || n == 0x0A || n == 0x0D || (0x20 ≤ n && n ≤ 0x7E) || n == 0x85 ||
    (0xA0 ≤ n && n ≤ 0xFFFD) || 0x10000 ≤ n

/-- A break as it counts in the text of a scalar: the usual ones are alike. -/
def breakChar (c : Char) : Char := if c == '\u2028' || c == '\u2029' then c else '\n'

/-- The number of bytes that characters take. -/
def byteCount (cs : List Char) : Nat := cs.foldl (fun n c => n + c.utf8Size) 0

/-- The rest of a text, and where it begins. -/
structure Cursor where
  rest : List Char
  /-- The number of bytes before. -/
  index : Nat := 0
  line : Nat := 0
  column : Nat := 0
  deriving Repr

namespace Cursor

/-- Goes over characters of the line. -/
def skip (c : Cursor) (n : Nat) : Cursor :=
  { c with rest := c.rest.drop n
           index := c.index + byteCount (c.rest.take n)
           column := c.column + n }

/-- Goes over the break that ends the line; two characters can be one break. -/
def newLine (c : Cursor) : Cursor :=
  match c.rest with
  | '\r' :: '\n' :: rest => ⟨rest, c.index + 2, c.line + 1, 0⟩
  | b :: rest => ⟨rest, c.index + b.utf8Size, c.line + 1, 0⟩
  | [] => c

/-- Is there a gap, or the end of the text, so many characters ahead? -/
def gapAt (c : Cursor) (n : Nat) : Bool := c.rest[n]?.all isGap

/-- Does the line begin with a marker of the bounds of a document? -/
def atMarker (c : Cursor) : Bool :=
  c.column == 0 && (c.rest.take 3 == "---".toList || c.rest.take 3 == "...".toList) && c.gapAt 3

theorem length_skip_lt {c : Cursor} {ch : Char} {rest : List Char} (h : c.rest = ch :: rest)
    (n : Nat) : (c.skip (n + 1)).rest.length < c.rest.length := by
  simp only [skip, h, List.drop_succ_cons, List.length_drop, List.length_cons]
  omega

theorem length_newLine_lt {c : Cursor} {ch : Char} {rest : List Char} (h : c.rest = ch :: rest) :
    c.newLine.rest.length < c.rest.length := by
  unfold newLine
  split
  next heq =>
    simp only [heq, List.length_cons]
    omega
  next heq => simp [heq]
  next heq => simp [heq] at h

end Cursor

end Payroll.Yaml
