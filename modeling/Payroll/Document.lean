import Payroll.Decimal.Double
import Payroll.Document.Scalar
import Payroll.Table

namespace Payroll

/-!
# Documents

A document is what a message or a configuration file says before anything is known about its
meaning: scalars and compounds.  The compounds of a message are lists and records, and a list can
stand for a record.  Those of a file are sequences and mappings: a sequence never stands for a
mapping, and any value can be a key.

Main definitions:

* `Document`: the values.
* `Document.ofDigits`, `Document.ofInteger`: the numbers of a message.
* `Document.resolve`: what a bare scalar is when nothing tells.
* `Document.toDecimal?`, `toText?`, `toUInt32?`, `toUInt64?`, `toInt32?`, `toLabel?`: scalars of a
  known kind.
* `Document.items?`, `entries?`, `fields?`: the parts of lists, of tables and of structures.
* `Document.isHeld`: a value that can be held before its use is known.
* `required`, `optional`: a field of a structure.
-/

/-- A value of a document. -/
inductive Document where
  | null
  | bool (b : Bool)
  /-- A whole number. -/
  | integer (n : Int)
  /-- The number `± m * 10 ^ e`, which is kept in double precision. -/
  | fraction (negative : Bool) (m : Nat) (e : Int)
  | text (s : String)
  /-- A scalar of a file without quotes, whose kind is decided where it is used. -/
  | bare (s : String)
  | list (items : List Document)
  /-- Names with values; a name may be given twice. -/
  | record (entries : List (String × Document))
  /-- The list of a file. -/
  | sequence (items : List Document)
  /-- The record of a file: keys with values; a key may be given twice. -/
  | mapping (entries : List (Document × Document))
  deriving Repr, Inhabited

namespace Document

/-! ### Scalars -/

/-- The whole numbers that are kept as such take sixty-four bits, with or without a sign. -/
def isWord (n : Int) : Bool :=
  decide (Int64.minValue.toInt ≤ n ∧ n < UInt64.size)

/-- The number `± m * 10 ^ e` of a message, written with a point or an exponent.  Its digits are
    rounded to double precision before the power of ten is applied. -/
def ofDigits (negative : Bool) (m : Nat) (e : Int) : Document :=
  match Double.ofDigits? m e with
  | some x =>
    let (a, i) := if x.m = 0 then (0, 0) else x.shortest
    fraction negative a i
  | none => fraction negative m e

/-- A whole number of a message; beyond sixty-four bits it is a fraction. -/
def ofInteger (n : Int) : Document :=
  if isWord n then integer n else ofDigits (decide (n < 0)) n.natAbs 0

/-- What a bare scalar is when nothing tells; other values are what they are.  An infinite number,
    or none, is neither a number nor text, and stays bare. -/
def resolve : Document → Document
  | bare s =>
    if Scalar.isNull s then null
    else
      match Scalar.bool? s with
      | some b => bool b
      | none =>
        match (Scalar.signed? s.toList).filter Scalar.isWhole with
        | some n => integer n
        | none =>
          if Scalar.isPadded s.toList then text s
          else if Scalar.isSpecial s then bare s
          else
            match Scalar.fraction? s.toList with
            | some (negative, m, e) => fraction negative m e
            | none => text s
  | d => d

/-- A decimal, as text or as a number. -/
def toDecimal? (d : Document) : Option Decimal :=
  match d.resolve with
  | integer n => if isWord n then Decimal.ofParts? (decide (n < 0)) n.natAbs 0 else none
  | fraction negative m e => Decimal.ofFraction? negative m e
  | text s => Decimal.readText? s
  | _ => none

/-- The written form of a decimal. -/
def ofDecimal (d : Decimal) : Document := text d.toString

/-- Text; a bare scalar is text where text is wanted. -/
def toText? : Document → Option String
  | text s => some s
  | bare s => some s
  | _ => none

/-- A whole number that is not negative. -/
def toUnsigned? : Document → Option Nat
  | integer n => if 0 ≤ n then some n.toNat else none
  | bare s => Scalar.unsigned? s.toList
  | _ => none

/-- A whole number. -/
def toSigned? : Document → Option Int
  | integer n => some n
  | bare s => Scalar.signed? s.toList
  | _ => none

/-- A natural number of thirty-two bits. -/
def toUInt32? (d : Document) : Option UInt32 :=
  d.toUnsigned?.bind fun n => if n < UInt32.size then some (.ofNat n) else none

/-- A natural number of sixty-four bits. -/
def toUInt64? (d : Document) : Option UInt64 :=
  d.toUnsigned?.bind fun n => if n < UInt64.size then some (.ofNat n) else none

/-- A whole number of thirty-two bits with a sign. -/
def toInt32? (d : Document) : Option Int32 :=
  d.toSigned?.bind fun n =>
    if Int32.minValue.toInt ≤ n ∧ n ≤ Int32.maxValue.toInt then some (.ofInt n) else none

/-- One of several things that are known by a label: the label itself, or a record that assigns
    nothing to it. -/
def toLabel? {α : Type} (all : List α) (label : α → String) : Document → Option α
  | text s => all.find? fun a => label a == s
  | bare s => all.find? fun a => label a == s
  | record [(s, null)] => all.find? fun a => label a == s
  | _ => none

/-! ### Compounds -/

/-- The members of a list; a value that is left out counts as an empty one. -/
def items? : Document → Option (List Document)
  | list items => some items
  | sequence items => some items
  | bare "" => some []
  | _ => none

/-- The entries of a table, whose keys are text; a value that is left out counts as an empty one. -/
def entries? : Document → Option (List (String × Document))
  | record entries => some entries
  | mapping entries => entries.mapM fun e => e.1.toText?.map fun name => (name, e.2)
  | bare "" => some []
  | _ => none

/-- A table by the meaning of its keys and values; of entries with the same key the last one
    counts. -/
def toTable? {κ α : Type} [DecidableEq κ] (key : String → Option κ)
    (value : Document → Option α) (d : Document) : Option (Table κ α) := do
  let entries ← d.entries?
  let entries ← entries.mapM fun e => do return (← key e.1, ← value e.2)
  return .ofList entries

/-- A table as a record. -/
def ofTable {κ α : Type} (key : κ → String) (value : α → Document) (t : Table κ α) : Document :=
  record (t.entries.map fun e => (key e.1, value e.2))

/-- The entries of a record under the given names, none of which may occur twice. -/
def select? (names : List String) (entries : List (String × Document)) :
    Option (Table String Document) :=
  let known := entries.filter fun e => names.contains e.1
  if h : (known.map Prod.fst).Nodup then some ⟨known, h⟩ else none

/-- The fields of a structure: a record of them, in which other names do not matter, or a list of
    their values in order, of which the last ones may be left out. -/
def fields? (names : List String) (d : Document) : Option (Table String Document) :=
  match d with
  | list items =>
    if items.length ≤ names.length then some (.ofList (names.zip items)) else none
  | _ => d.entries?.bind (select? names)

/-- Can the value be held before its use is known?  In a file, whole numbers then take at most
    sixty-four bits, and compounds are nested at most `depth` deep. -/
def isHeld : Nat → Document → Bool
  | _, bare s =>
    match (bare s).resolve with
    | integer n => isWord n
    | _ => true
  | 0, sequence _ => false
  | 0, mapping _ => false
  | depth + 1, sequence items => items.all (isHeld depth)
  | depth + 1, mapping entries => entries.all fun e => isHeld depth e.1 && isHeld depth e.2
  | _, _ => true

end Document

/-- A field that must be given. -/
def required {α : Type} (fields : Table String Document) (name : String)
    (decode : Document → Option α) : Option α :=
  (fields.get? name).bind decode

/-- A field with a value of its own if it is not given. -/
def optional {α : Type} (fields : Table String Document) (name : String) (default : α)
    (decode : Document → Option α) : Option α :=
  match fields.get? name with
  | none => some default
  | some d => decode d

end Payroll
