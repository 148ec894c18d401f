import Payroll.Numeral

namespace Payroll

/-!
# Run identifiers

A committed run has an identifier of 128 bits.  A fresh one is drawn at random: four of its bits
then say so, and two more say how the rest is laid out.

Main definitions:

* `RunId`: the identifiers.
* `RunId.ofRandom`, `RunId.version`: a fresh identifier, and the four bits that mark it.
* `RunId.render`, `RunId.parse?`: hexadecimal digits in five groups.
-/

/-- An identifier of a run. -/
structure RunId where
  bits : BitVec 128
  deriving DecidableEq, Repr

namespace RunId

/-- The kind of an identifier; four means drawn at random. -/
def version (id : RunId) : Nat := (id.bits.extractLsb' 76 4).toNat

/-- The identifier of 128 random bits, of which six are replaced by the marks of a random
    identifier. -/
def ofRandom (bits : BitVec 128) : RunId where
  bits :=
    bits.extractLsb' 80 48 ++ 4#4 ++ bits.extractLsb' 64 12 ++ 2#2 ++ bits.extractLsb' 0 62

/-- The lengths of the groups of digits. -/
def groups : List Nat := [8, 4, 4, 4, 12]

/-- The written form: lower case, a hyphen between the groups. -/
def render (id : RunId) : List Char :=
  join groups (Numeral.fixedDigits 16 32 id.bits.toNat)
where
  /-- The digits with a hyphen after every group but the last one. -/
  join : List Nat → List Char → List Char
    | [], cs => cs
    | [_], cs => cs
    | n :: ns, cs => cs.take n ++ '-' :: join ns (cs.drop n)

/-- The written form. -/
protected def toString (id : RunId) : String := String.ofList id.render

instance : ToString RunId := ⟨RunId.toString⟩

/-- The digits between hyphens at the places where groups end; `none` if one is missing. -/
def ungroup? : List Nat → List Char → Option (List Char)
  | [], cs => some cs
  | [_], cs => some cs
  | n :: ns, cs =>
    match cs.drop n with
    | '-' :: rest => (ungroup? ns rest).map (cs.take n ++ ·)
    | _ => none

/-- The identifier of thirty-two hexadecimal digits. -/
def ofDigits? (cs : List Char) : Option RunId :=
  if cs.length = 32 then (Numeral.value? 16 cs).map fun n => ⟨BitVec.ofNat 128 n⟩ else none

/-- The text that may introduce the groups, in either case. -/
def resourceLabel : List Char := "urn:uuid:".toList

/-- Reads the groups, which may be in braces or behind a label, or the digits without hyphens. -/
def parse? (cs : List Char) : Option RunId :=
  if cs.length = 32 then ofDigits? cs
  else if cs.length = 36 then grouped cs
  else if cs.length = 38 ∧ cs.head? = some '\x7b' ∧ cs.getLast? = some '\x7d' then
    grouped (cs.drop 1).dropLast
  else if cs.length = 45 ∧ (cs.take 9).map Char.toLower = resourceLabel then grouped (cs.drop 9)
  else none
where
  /-- Reads the five groups. -/
  grouped (cs : List Char) : Option RunId := (ungroup? groups cs).bind ofDigits?

/-! ### Fresh identifiers -/

/-- A fresh identifier is marked as random. -/
theorem version_ofRandom (bits : BitVec 128) : (ofRandom bits).version = 4 := by
  have h : (ofRandom bits).bits.extractLsb' 76 4 = 4#4 := by
    apply BitVec.eq_of_getLsbD_eq
    intro i hi
    simp only [ofRandom, BitVec.getLsbD_extractLsb', BitVec.getLsbD_append, hi, decide_true,
      Bool.true_and]
    rw [if_neg (by omega), if_neg (by omega), if_neg (by omega), if_pos (by omega)]
    exact congrArg (BitVec.getLsbD 4#4) (by omega)
  rw [version, h]
  rfl

end RunId

end Payroll
