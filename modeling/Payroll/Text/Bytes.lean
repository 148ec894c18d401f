namespace Payroll.Text

/-!
# Texts as bytes

A text is stored as bytes, of which a character takes from one to four.  Places in it are counted in
bytes, and not every place is between two characters.

Main definitions:

* `bytes`: the bytes of a text.
* `cut?`: cutting a text at a place, which does not go through a character.
-/

/-- The bytes of a text. -/
def bytes (s : String) : List UInt8 := s.toByteArray.data.toList

/-- Cuts a text in front of a byte, counted from zero; `none` if that is inside a character or
    behind the end. -/
def cut? : Nat → List Char → Option (List Char × List Char)
  | 0, cs => some ([], cs)
  | _ + 1, [] => none
  | n + 1, c :: cs =>
    if c.utf8Size ≤ n + 1 then
      (cut? (n + 1 - c.utf8Size) cs).map fun (front, back) => (c :: front, back)
    else none

end Payroll.Text
