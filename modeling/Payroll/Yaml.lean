import Payroll.Yaml.Tokens

namespace Payroll.Yaml

/-!
# YAML texts as documents

Sequences and mappings are written by indentation or in brackets.  A value that is left out counts
as an empty scalar.

Main definitions:

* `node?`: the value at the front of a list of tokens.
* `document?`: the only document of a text.
-/

/-- A value that is left out. -/
def absent : Document := .bare ""

/-- Is there a token of the given kinds in front? -/
def Token.bounds (kinds : Token → Bool) (ts : List Token) : Bool := ts.head?.any kinds

/-- What can stand behind a key, or a value, of a block mapping that is left out. -/
def Token.endsEntry : Token → Bool
  | .key | .value | .blockEnd => true
  | _ => false

/-- What can stand behind a member of a block sequence that is left out. -/
def Token.endsItem : Token → Bool
  | .item | .blockEnd => true
  | _ => false

/-- What can stand behind a member of a sequence that is indented no further than its key. -/
def Token.endsBareItem : Token → Bool
  | .item | .key | .value | .blockEnd => true
  | _ => false

/-- What can stand behind a value that is left out within the brackets of a mapping or of a
    sequence. -/
def Token.endsFlow (inMapping : Bool) : Token → Bool
  | .comma => true
  | .mappingEnd => inMapping
  | .sequenceEnd => !inMapping
  | _ => false

/-- What can stand behind a key that is left out within brackets. -/
def Token.endsFlowKey (inMapping : Bool) : Token → Bool
  | .value => true
  | t => t.endsFlow inMapping

mutual

/-- The value at the front, and the tokens behind it.  `inBlock` tells that it may be a block, and
    `afterKey` that it may be a sequence that is indented no further than its key. -/
def node? (fuel : Nat) (inBlock afterKey : Bool) (ts : List Token) :
    Option (Document × List Token) :=
  match fuel with
  | 0 => none
  | fuel + 1 =>
    match ts with
    | .scalar value :: rest => some (value, rest)
    | .sequenceStart :: rest => (flowItems? fuel true rest).map fun r => (.sequence r.1, r.2)
    | .mappingStart :: rest => (flowEntries? fuel true rest).map fun r => (.mapping r.1, r.2)
    | .blockSequence :: rest =>
      if inBlock then (items? fuel rest).map fun r => (.sequence r.1, r.2) else none
    | .blockMapping :: rest =>
      if inBlock then (entries? fuel rest).map fun r => (.mapping r.1, r.2) else none
    | .item :: _ =>
      if afterKey then (bareItems? fuel ts).map fun r => (.sequence r.1, r.2) else none
    | _ => none

/-- The members of a block sequence. -/
def items? (fuel : Nat) (ts : List Token) : Option (List Document × List Token) :=
  match fuel with
  | 0 => none
  | fuel + 1 =>
    match ts with
    | .blockEnd :: rest => some ([], rest)
    | .item :: rest => do
      let (value, rest) ←
        if Token.bounds Token.endsItem rest then some (absent, rest)
        else node? fuel true false rest
      let (values, rest) ← items? fuel rest
      return (value :: values, rest)
    | _ => none

/-- The members of a sequence that is indented no further than its key. -/
def bareItems? (fuel : Nat) (ts : List Token) : Option (List Document × List Token) :=
  match fuel with
  | 0 => none
  | fuel + 1 =>
    match ts with
    | .item :: rest => do
      let (value, rest) ←
        if Token.bounds Token.endsBareItem rest then some (absent, rest)
        else node? fuel true false rest
      let (values, rest) ← bareItems? fuel rest
      return (value :: values, rest)
    | _ => some ([], ts)

/-- The entries of a block mapping. -/
def entries? (fuel : Nat) (ts : List Token) :
    Option (List (Document × Document) × List Token) :=
  match fuel with
  | 0 => none
  | fuel + 1 =>
    match ts with
    | .blockEnd :: rest => some ([], rest)
    | .key :: rest => do
      let (key, rest) ←
        if Token.bounds Token.endsEntry rest then some (absent, rest)
        else node? fuel true true rest
      let (value, rest) ←
        match rest with
        | .value :: rest =>
          if Token.bounds Token.endsEntry rest then some (absent, rest)
          else node? fuel true true rest
        | _ => some (absent, rest)
      let (entries, rest) ← entries? fuel rest
      return ((key, value) :: entries, rest)
    | _ => none

/-- The members of a sequence in brackets.  A key makes a mapping of one entry. -/
def flowItems? (fuel : Nat) (first : Bool) (ts : List Token) :
    Option (List Document × List Token) :=
  match fuel with
  | 0 => none
  | fuel + 1 =>
    match ts with
    | .sequenceEnd :: rest => some ([], rest)
    | _ => do
      let ts ←
        match first, ts with
        | true, _ => some ts
        | false, .comma :: rest => some rest
        | false, _ => none
      match ts with
      | .sequenceEnd :: rest => if first then none else some ([], rest)
      | .key :: rest => do
        let (entry, rest) ← flowEntry? fuel false rest
        let (values, rest) ← flowItems? fuel false rest
        return (.mapping [entry] :: values, rest)
      | _ => do
        let (value, rest) ← node? fuel false false ts
        let (values, rest) ← flowItems? fuel false rest
        return (value :: values, rest)

/-- The entries of a mapping in brackets.  A key may do without a value. -/
def flowEntries? (fuel : Nat) (first : Bool) (ts : List Token) :
    Option (List (Document × Document) × List Token) :=
  match fuel with
  | 0 => none
  | fuel + 1 =>
    match ts with
    | .mappingEnd :: rest => some ([], rest)
    | _ => do
      let ts ←
        match first, ts with
        | true, _ => some ts
        | false, .comma :: rest => some rest
        | false, _ => none
      match ts with
      | .mappingEnd :: rest => if first then none else some ([], rest)
      | .key :: rest => do
        let (entry, rest) ← flowEntry? fuel true rest
        let (entries, rest) ← flowEntries? fuel false rest
        return (entry :: entries, rest)
      | _ => do
        let (key, rest) ← node? fuel false false ts
        let (entries, rest) ← flowEntries? fuel false rest
        return ((key, absent) :: entries, rest)

/-- A key within brackets, and its value.  In a sequence, a key that is left out takes the place of
    the token behind it. -/
def flowEntry? (fuel : Nat) (inMapping : Bool) (ts : List Token) :
    Option ((Document × Document) × List Token) :=
  match fuel with
  | 0 => none
  | fuel + 1 => do
    let (key, rest) ←
      if Token.bounds (Token.endsFlowKey inMapping) ts then
        some (absent, if inMapping then ts else ts.tail)
      else node? fuel false false ts
    let (value, rest) ←
      match rest with
      | .value :: rest =>
        if Token.bounds (Token.endsFlow inMapping) rest then some (absent, rest)
        else node? fuel false false rest
      | _ => some (absent, rest)
    return ((key, value), rest)

end

/-- Is the token a marker of the end of a document? -/
def Token.isStop : Token → Bool
  | .stop => true
  | _ => false

/-- The value of the tokens of a document, behind which markers of its end may stand. -/
def content? (ts : List Token) : Option Document := do
  let (value, rest) ← node? (3 * ts.length + 3) true false ts
  if rest.all Token.isStop then some value else none

/-- The document of a text, which holds no other.  An empty one is an empty scalar. -/
def document? (text : String) : Option Document := do
  match ← tokens? text with
  | [] => return absent
  | .start :: rest => if rest.all Token.isStop then return absent else content? rest
  | ts => content? ts

end Payroll.Yaml
