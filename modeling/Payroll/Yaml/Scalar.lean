import Payroll.Numeral
import Payroll.Yaml.Cursor

namespace Payroll.Yaml

/-!
# Scalars of a YAML text

A scalar can go on over several lines.  A single break then counts as a space, and of several
breaks the first one is dropped.

Main definitions:

* `Gap`, `Gap.text`: what stands between two words, and what it counts for.
* `Cursor.plain?`: a scalar without quotes.
* `Cursor.quoted?`, `escape?`: a scalar in quotes.
-/

/-! ### Gaps -/

/-- What stands between two words of a scalar. -/
structure Gap where
  /-- The spaces before the first break. -/
  spaces : List Char := []
  breaks : List Char := []
  /-- A first break was escaped: it does not count. -/
  escaped : Bool := false

namespace Gap

/-- Has a line ended? -/
def isBroken (g : Gap) : Bool := g.escaped || !g.breaks.isEmpty

/-- Is there any gap? -/
def isEmpty (g : Gap) : Bool := g.spaces.isEmpty && !g.isBroken

/-- Goes over a space, which does not count at the beginning of a line. -/
def space (g : Gap) (c : Char) : Gap :=
  if g.isBroken then g else { g with spaces := g.spaces ++ [c] }

/-- Goes over a break; spaces in front of it do not count. -/
def line (g : Gap) (c : Char) : Gap :=
  { g with spaces := [], breaks := g.breaks ++ [breakChar c] }

/-- What the gap counts for. -/
def text (g : Gap) : List Char :=
  if g.escaped then g.breaks
  else
    match g.breaks with
    | [] => g.spaces
    | ['\n'] => [' ']
    | '\n' :: more => more
    | breaks => breaks

end Gap

/-! ### Scalars without quotes -/

/-- The characters that bound a scalar within brackets. -/
def isBracket (c : Char) : Bool :=
  c == ',' || c == '[' || c == ']' || c == '\x7b' || c == '\x7d'

/-- Does the scalar end in front of this character, which stands at the cursor? -/
def Cursor.endsPlain (c : Cursor) (inFlow : Bool) (ch : Char) : Bool :=
  (ch == ':' && c.gapAt 1) || (inFlow && isBracket ch)

/-- Within brackets, a colon may not be followed by what bounds a scalar. -/
def Cursor.clashes (c : Cursor) (inFlow : Bool) (ch : Char) : Bool :=
  inFlow && ch == ':' && c.rest[1]?.any fun d => isBracket d || d == '?'

/-- A scalar without quotes, as far as it has been read, followed by a gap.  It ends in front of a
    comment, at a line that is not indented by `limit`, or at what bounds it.  The answer tells
    whether it ends with its line. -/
def Cursor.plain? (limit : Nat) (inFlow : Bool) (text : List Char) (g : Gap) (c : Cursor) :
    Option (List Char × Bool × Cursor) :=
  match _h : c.rest with
  | [] => some (text, g.isBroken, c)
  | ch :: _ =>
    if isSpace ch then
      if g.isBroken && ch == '\t' && decide (c.column < limit) then none
      else plain? limit inFlow text (g.space ch) (c.skip 1)
    else if isBreak ch then plain? limit inFlow text (g.line ch) c.newLine
    else if !g.isEmpty && !inFlow && decide (c.column < limit) then some (text, g.isBroken, c)
    else if c.atMarker || (!g.isEmpty && ch == '#') then some (text, g.isBroken, c)
    else if c.clashes inFlow ch then none
    else if c.endsPlain inFlow ch then some (text, g.isBroken, c)
    else plain? limit inFlow (text ++ g.text ++ [ch]) {} (c.skip 1)
termination_by c.rest.length
decreasing_by
  · exact length_skip_lt _h 0
  · exact length_newLine_lt _h
  · exact length_skip_lt _h 0

/-! ### Scalars in quotes -/

/-- The character of so many hexadecimal digits. -/
def coded? (width : Nat) (cs : List Char) : Option Char :=
  if cs.length < width then none
  else
    (Numeral.value? 16 (cs.take width)).bind fun n =>
      if n.isValidChar then some (Char.ofNat n) else none

/-- The character that stands behind a backslash, and how many characters stand for it. -/
def escape? : List Char → Option (Char × Nat)
  | '0' :: _ => some (Char.ofNat 0, 1)
  | 'a' :: _ => some ('\x07', 1)
  | 'b' :: _ => some ('\x08', 1)
  | 't' :: _ | '\t' :: _ => some ('\t', 1)
  | 'n' :: _ => some ('\n', 1)
  | 'v' :: _ => some ('\x0b', 1)
  | 'f' :: _ => some ('\x0c', 1)
  | 'r' :: _ => some ('\r', 1)
  | 'e' :: _ => some ('\x1b', 1)
  | ' ' :: _ => some (' ', 1)
  | '"' :: _ => some ('"', 1)
  | '/' :: _ => some ('/', 1)
  | '\\' :: _ => some ('\\', 1)
  | 'N' :: _ => some ('\u0085', 1)
  | '_' :: _ => some ('\u00a0', 1)
  | 'L' :: _ => some ('\u2028', 1)
  | 'P' :: _ => some ('\u2029', 1)
  | 'x' :: cs => (coded? 2 cs).map fun c => (c, 3)
  | 'u' :: cs => (coded? 4 cs).map fun c => (c, 5)
  | 'U' :: cs => (coded? 8 cs).map fun c => (c, 9)
  | _ => none

/-- The rest of a scalar in quotes behind what has been read of it and a gap.  Between single
    quotes one is written twice; between double quotes a backslash escapes. -/
def Cursor.quoted? (quote : Char) (text : List Char) (g : Gap) (c : Cursor) :
    Option (List Char × Cursor) :=
  match _h : c.rest with
  | [] => none
  | ch :: more =>
    if isSpace ch then quoted? quote text (g.space ch) (c.skip 1)
    else if isBreak ch then quoted? quote text (g.line ch) c.newLine
    else if c.atMarker then none
    else if ch == quote then
      if quote == '\'' && more.head? == some '\'' then
        quoted? quote (text ++ g.text ++ ['\'']) {} (c.skip 2)
      else some (text ++ g.text, c.skip 1)
    else if ch == '\\' && quote == '"' then
      if more.head?.any isBreak then
        quoted? quote (text ++ g.text) { escaped := true } (c.skip 1).newLine
      else
        match escape? more with
        | some (e, n) => quoted? quote (text ++ g.text ++ [e]) {} (c.skip (n + 1))
        | none => none
    else quoted? quote (text ++ g.text ++ [ch]) {} (c.skip 1)
termination_by c.rest.length
decreasing_by
  · exact length_skip_lt _h 0
  · exact length_newLine_lt _h
  · exact length_skip_lt _h 1
  · rename_i hb
    have h1 : (c.skip 1).rest = more := by simp [Cursor.skip, _h]
    cases hm : more with
    | nil => simp [hm] at hb
    | cons d more =>
      have := length_newLine_lt (h1.trans hm)
      simp_all
      omega
  · exact length_skip_lt _h n
  · exact length_skip_lt _h 0

end Payroll.Yaml
