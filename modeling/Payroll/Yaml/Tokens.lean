import Payroll.Document
import Payroll.Yaml.Scalar

namespace Payroll.Yaml

/-!
# The tokens of a YAML text

Indentation becomes visible as tokens that open and close blocks.  That a scalar or a bracket is a
key shows only at the colon behind it; its token is then put in front of it.

Main definitions:

* `Token`: the tokens.
* `KeyMark`: a place where a key may have begun.
* `Scan`: a text that has been read in part.
* `tokens?`: the tokens of a text.
-/

/-- The tokens. -/
inductive Token where
  | scalar (value : Document)
  /-- A sequence or a mapping by indentation begins, or one of them ends. -/
  | blockSequence | blockMapping | blockEnd
  /-- The dash of a member of a sequence. -/
  | item
  | key | value
  | sequenceStart | sequenceEnd | mappingStart | mappingEnd | comma
  /-- The markers of the bounds of a document. -/
  | start | stop

/-- A place where a key may have begun. -/
structure KeyMark where
  /-- The number of tokens before it. -/
  place : Nat
  index : Nat
  line : Nat
  column : Nat
  /-- Nothing but a key may stand here. -/
  isDue : Bool

/-- A text that has been read in part. -/
structure Scan where
  cursor : Cursor
  tokens : Array Token := #[]
  /-- The columns of the open blocks, the innermost first. -/
  indents : List Nat := []
  /-- Where a key may have begun, within the innermost brackets. -/
  key? : Option KeyMark := none
  /-- The same for the brackets around them, one entry for each. -/
  outer : List (Option KeyMark) := []
  /-- May a key begin here? -/
  keyAllowed : Bool := true

namespace Scan

/-- Is the place within brackets? -/
def inFlow (s : Scan) : Bool := !s.outer.isEmpty

/-- The least column of a scalar's further lines. -/
def limit (s : Scan) : Nat :=
  match s.indents with
  | [] => 0
  | i :: _ => i + 1

/-- Adds a token. -/
def push (s : Scan) (t : Token) : Scan := { s with tokens := s.tokens.push t }

/-- Goes on to the next character. -/
def skip (s : Scan) (n : Nat) : Scan := { s with cursor := s.cursor.skip n }

/-! ### Keys -/

/-- No key has begun here any more; `none` if there had to be one. -/
def dropKey? (s : Scan) : Option Scan :=
  if s.key?.any KeyMark.isDue then none else some { s with key? := none }

/-- A key may have begun at the cursor. -/
def markKey? (s : Scan) : Option Scan :=
  if s.keyAllowed then
    s.dropKey?.map fun s =>
      let c := s.cursor
      let isDue := !s.inFlow && s.indents.head? == some c.column
      { s with key? := some ⟨s.tokens.size, c.index, c.line, c.column, isDue⟩ }
  else some s

/-- The greatest length of a key, in bytes. -/
def maxKey : Nat := 1024

/-- Is it too late for the colon behind a key? -/
def isExpired (c : Cursor) (k : KeyMark) : Bool :=
  decide (k.line < c.line) || decide (k.index + maxKey < c.index)

/-- Forgets the keys for which it is too late; `none` if one of them is due. -/
def expireKeys? (s : Scan) : Option Scan :=
  let expired (k : KeyMark) : Bool := isExpired s.cursor k
  if (s.key? :: s.outer).any fun m => m.any fun k => expired k && k.isDue then none
  else
    let keep (m : Option KeyMark) : Option KeyMark := m.filter fun k => !expired k
    some { s with key? := keep s.key?, outer := s.outer.map keep }

/-! ### Blocks -/

/-- Closes the blocks that are indented beyond the column. -/
def unroll (column : Nat) (s : Scan) : Scan :=
  if s.inFlow then s
  else
    let (closed, left) := s.indents.span fun i => decide (column < i)
    { s with indents := left, tokens := s.tokens ++ (closed.map fun _ => Token.blockEnd).toArray }

/-- Closes all blocks. -/
def unrollAll (s : Scan) : Scan :=
  if s.inFlow then s
  else
    { s with indents := [],
             tokens := s.tokens ++ (s.indents.map fun _ => Token.blockEnd).toArray }

/-- Opens a block at a column beyond those of the open blocks, its token being put at a place. -/
def roll (column place : Nat) (t : Token) (s : Scan) : Scan :=
  if s.inFlow || s.indents.head?.any (fun i => decide (column ≤ i)) then s
  else
    { s with indents := column :: s.indents, tokens := s.tokens.insertIdxIfInBounds place t }

/-! ### Between tokens -/

/-- Goes on to the next token, over gaps and comments.  At the beginning of a line, a mark of the
    byte order does not count. -/
def advance (s : Scan) (inComment : Bool) : Scan :=
  match _h : s.cursor.rest with
  | [] => s
  | ch :: _ =>
    if isBreak ch then
      advance { s with cursor := s.cursor.newLine, keyAllowed := s.keyAllowed || !s.inFlow } false
    else if inComment || ch == '#' then advance (s.skip 1) true
    else if s.cursor.column == 0 && ch == '\ufeff' then advance (s.skip 1) false
    else if ch == ' ' || (ch == '\t' && (s.inFlow || !s.keyAllowed)) then advance (s.skip 1) false
    else s
termination_by s.cursor.rest.length
decreasing_by
  · exact Cursor.length_newLine_lt _h
  · exact Cursor.length_skip_lt _h 0
  · exact Cursor.length_skip_lt _h 0
  · exact Cursor.length_skip_lt _h 0

/-! ### Single tokens -/

/-- A marker of the bounds of a document. -/
def marker? (t : Token) (s : Scan) : Option Scan := do
  let s ← s.unrollAll.dropKey?
  return ({ s with keyAllowed := false }.push t).skip 3

/-- An opening bracket; it may begin a key. -/
def open? (t : Token) (s : Scan) : Option Scan := do
  let s ← s.markKey?
  return ({ s with key? := none, outer := s.key? :: s.outer, keyAllowed := true }.push t).skip 1

/-- A closing bracket. -/
def close? (t : Token) (s : Scan) : Option Scan := do
  let s ← s.dropKey?
  let s : Scan :=
    match s.outer with
    | k :: outer => { s with key? := k, outer }
    | [] => s
  return ({ s with keyAllowed := false }.push t).skip 1

/-- A comma within brackets. -/
def comma? (s : Scan) : Option Scan := do
  let s ← s.dropKey?
  return ({ s with keyAllowed := true }.push .comma).skip 1

/-- A dash.  Outside of brackets it stands where a key could, and may open a sequence. -/
def dash? (s : Scan) : Option Scan := do
  if !s.inFlow && !s.keyAllowed then none
  let s ← (s.roll s.cursor.column s.tokens.size .blockSequence).dropKey?
  return ({ s with keyAllowed := true }.push .item).skip 1

/-- A question mark in front of a key. -/
def question? (s : Scan) : Option Scan := do
  if !s.inFlow && !s.keyAllowed then none
  let s ← (s.roll s.cursor.column s.tokens.size .blockMapping).dropKey?
  return ({ s with keyAllowed := !s.inFlow }.push .key).skip 1

/-- A colon, behind a key if one may have begun. -/
def colon? (s : Scan) : Option Scan :=
  match s.key? with
  | some k =>
    let s := { s with tokens := s.tokens.insertIdxIfInBounds k.place .key }
    let s := s.roll k.column k.place .blockMapping
    some (({ s with key? := none, keyAllowed := false }.push .value).skip 1)
  | none => do
    if !s.inFlow && !s.keyAllowed then none
    let s := s.roll s.cursor.column s.tokens.size .blockMapping
    return ({ s with keyAllowed := !s.inFlow }.push .value).skip 1

/-- A scalar in quotes. -/
def quoted? (quote : Char) (s : Scan) : Option Scan := do
  let s ← s.markKey?
  let (text, c) ← (s.cursor.skip 1).quoted? quote [] {}
  return { s with cursor := c, keyAllowed := false }.push (.scalar (.text (.ofList text)))

/-- A scalar without quotes. -/
def plain? (s : Scan) : Option Scan := do
  let s ← s.markKey?
  let (text, broken, c) ← s.cursor.plain? s.limit s.inFlow [] {}
  return { s with cursor := c, keyAllowed := broken }.push (.scalar (.bare (.ofList text)))

/-- The characters with which no scalar without quotes begins. -/
def isIndicator (c : Char) : Bool := "-?:,[]\x7b\x7d#&*!|>'\"%@`".toList.contains c

/-- Does a scalar without quotes begin at the cursor? -/
def startsPlain (s : Scan) (ch : Char) : Bool :=
  let c := s.cursor
  !(isGap ch || isIndicator ch) || (ch == '-' && !c.rest[1]?.any isSpace) ||
    (!s.inFlow && (ch == '?' || ch == ':') && !c.gapAt 1)

/-- Reads the token at the cursor.  Names of values, tags, directives and texts by lines are not
    supported. -/
def token? (s : Scan) (ch : Char) : Option Scan :=
  let flowOrGap := s.inFlow || s.cursor.gapAt 1
  if s.cursor.atMarker then s.marker? (if ch == '-' then .start else .stop)
  else if s.cursor.column == 0 && ch == '%' then none
  else if ch == '[' then s.open? .sequenceStart
  else if ch == '\x7b' then s.open? .mappingStart
  else if ch == ']' then s.close? .sequenceEnd
  else if ch == '\x7d' then s.close? .mappingEnd
  else if ch == ',' then s.comma?
  else if ch == '-' && s.cursor.gapAt 1 then s.dash?
  else if ch == '?' && flowOrGap then s.question?
  else if ch == ':' && flowOrGap then s.colon?
  else if ch == '\'' || ch == '"' then s.quoted? ch
  else if s.startsPlain ch then s.plain?
  else none

/-- Reads all tokens.  Every token takes at least one character. -/
def run? (s : Scan) : Option (Array Token) := do
  let s' ← (s.advance false).expireKeys?
  match s'.cursor.rest with
  | [] => s'.unrollAll.dropKey?.map Scan.tokens
  | ch :: _ =>
    let s' ← (s'.unroll s'.cursor.column).token? ch
    if s'.cursor.rest.length < s.cursor.rest.length then run? s' else none
termination_by s.cursor.rest.length

end Scan

/-- The tokens of a text; `none` if it is not well formed. -/
def tokens? (text : String) : Option (List Token) :=
  let cs := text.toList
  if cs.all isAllowed then (Scan.run? { cursor := { rest := cs } }).map Array.toList else none

end Payroll.Yaml
