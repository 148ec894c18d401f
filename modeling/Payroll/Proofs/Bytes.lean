import Mathlib.Data.Char
import Mathlib.Data.List.Basic
import Payroll.Text.Bytes

namespace Payroll.Text

/-!
# Bytes of texts

Where a cut goes between characters, and the bytes of texts that are ASCII.

* `length_bytes_cons` — a character takes as many bytes as its size says.
* `cut?_eq_some_iff` — **a cut** splits a text between characters, so many bytes being in
  front of it.
* `bytes_ofList_of_ascii`, `isAscii_of_bytes` — **ASCII characters** take one byte each, and bytes
  that are ASCII are such characters.
* `append_lt_append_iff` — the order of bytes decides at the first difference.
-/

/-! ### Bytes -/

/-- An ASCII character: its code takes seven bits. -/
def IsAscii (c : Char) : Prop := c.toNat < 128

variable {c : Char} {cs front back : List Char} {s : String}

theorem bytes_eq (s : String) : bytes s = s.toList.flatMap String.utf8EncodeChar := by
  rw [bytes, ← String.utf8Encode_toList, List.utf8Encode, List.data_toByteArray]

theorem bytes_ofList (cs : List Char) : bytes (.ofList cs) = cs.flatMap String.utf8EncodeChar := by
  rw [bytes_eq, String.toList_ofList]

theorem bytes_ofList_cons (c : Char) (cs : List Char) :
    bytes (.ofList (c :: cs)) = String.utf8EncodeChar c ++ bytes (.ofList cs) := by
  rw [bytes_ofList, bytes_ofList, List.flatMap_cons]

/-- Every character takes a byte at least. -/
theorem length_bytes_cons (c : Char) (cs : List Char) :
    (bytes (.ofList (c :: cs))).length = c.utf8Size + (bytes (.ofList cs)).length := by
  rw [bytes_ofList_cons, List.length_append, String.length_utf8EncodeChar]

/-! ### Cuts -/

/-- **A cut** goes between characters: there are so many bytes in front of it. -/
theorem cut?_eq_some_iff {n : Nat} :
    cut? n cs = some (front, back) ↔ cs = front ++ back ∧ (bytes (.ofList front)).length = n := by
  induction cs generalizing n front with
  | nil =>
    cases front with
    | nil => cases n <;> simp [cut?, bytes, eq_comm]
    | cons c front => cases n <;> simp [cut?]
  | cons c cs ih =>
    have hpos := c.utf8Size_pos
    cases front with
    | nil =>
      cases n with
      | zero => simp [cut?, bytes, eq_comm]
      | succ n => simp [cut?, bytes]
    | cons d front =>
      rw [length_bytes_cons]
      cases n with
      | zero =>
        have hd := d.utf8Size_pos
        simp [cut?]
        omega
      | succ n =>
        -- The first character fits whole or not at all.
        rw [cut?]
        split
        · rename_i hle
          simp only [Option.map_eq_some_iff, Prod.exists, Prod.mk.injEq, List.cons.injEq,
            List.cons_append]
          constructor
          · rintro ⟨front', back', hcut, ⟨rfl, rfl⟩, rfl⟩
            obtain ⟨rfl, hlength⟩ := ih.1 hcut
            exact ⟨⟨rfl, rfl⟩, by omega⟩
          · rintro ⟨⟨rfl, rfl⟩, hlength⟩
            exact ⟨front, back, ih.2 ⟨rfl, by omega⟩, ⟨rfl, rfl⟩, rfl⟩
        · simp only [List.cons_append, List.cons.injEq, false_iff, reduceCtorEq]
          rintro ⟨⟨rfl, rfl⟩, hlength⟩
          omega

/-! ### ASCII -/

theorem utf8EncodeChar_of_ascii (h : IsAscii c) : String.utf8EncodeChar c = [c.toUInt8] := by
  refine String.utf8EncodeChar_eq_singleton (Char.utf8Size_eq_one_iff.2 ?_)
  exact UInt32.le_iff_toNat_le.2 (Nat.le_of_lt_succ h)

/-- A character beyond ASCII has a byte beyond ASCII. -/
theorem isAscii_of_utf8EncodeChar (h : ∀ b ∈ String.utf8EncodeChar c, b < 128) : IsAscii c := by
  by_contra hlarge
  have hlarge : ¬ c.val.toNat ≤ 127 := fun hle => hlarge (Nat.lt_succ_of_le hle)
  rw [String.utf8EncodeChar, if_neg hlarge] at h
  have hhigh : ∀ n, 128 ≤ n → n < 256 → ¬ UInt8.ofNat n < 128 := by
    intro n hlow hn
    rw [UInt8.lt_iff_toNat_lt, UInt8.toNat_ofNat', Nat.mod_eq_of_lt hn]
    exact Nat.not_lt.2 hlow
  -- The first byte of several tells by its highest bits how many there are.
  repeat' split at h
  all_goals exact hhigh _ (by omega) (by omega) (h _ List.mem_cons_self)

/-- **ASCII characters** take one byte each. -/
theorem bytes_ofList_of_ascii (h : ∀ c ∈ cs, IsAscii c) :
    bytes (.ofList cs) = cs.map Char.toUInt8 := by
  induction cs with
  | nil => rfl
  | cons c cs ih =>
    rw [List.forall_mem_cons] at h
    rw [bytes_ofList_cons, utf8EncodeChar_of_ascii h.1, ih h.2]
    rfl

/-- Bytes that are ASCII are characters of their own. -/
theorem isAscii_of_bytes (h : ∀ b ∈ bytes (.ofList cs), b < 128) : ∀ c ∈ cs, IsAscii c := by
  induction cs with
  | nil => simp
  | cons c cs ih =>
    rw [bytes_ofList_cons, List.forall_mem_append] at h
    exact List.forall_mem_cons.2 ⟨isAscii_of_utf8EncodeChar h.1, ih h.2⟩

/-- ASCII characters are cut like bytes. -/
theorem cut?_of_ascii {n : Nat} (h : ∀ c ∈ cs, IsAscii c) (hn : n ≤ cs.length) :
    cut? n cs = some (cs.take n, cs.drop n) := by
  refine cut?_eq_some_iff.2 ⟨(List.take_append_drop n cs).symm, ?_⟩
  rw [bytes_ofList_of_ascii fun c hc => h c (List.mem_of_mem_take hc), List.length_map,
    List.length_take_of_le hn]

/-- An ASCII character is known by its byte. -/
theorem toNat_toUInt8 (h : IsAscii c) : c.toUInt8.toNat = c.toNat :=
  Nat.mod_eq_of_lt (Nat.lt_trans h (by decide))

/-! ### Order -/

/-- The order of bytes decides at the first difference. -/
theorem append_lt_append_iff {xs ys as bs : List UInt8} (h : xs.length = ys.length) :
    xs ++ as < ys ++ bs ↔ xs < ys ∨ xs = ys ∧ as < bs := by
  induction xs generalizing ys with
  | nil =>
    obtain rfl := List.length_eq_zero_iff.1 h.symm
    simp
  | cons x xs ih =>
    cases ys with
    | nil => cases h
    | cons y ys =>
      rw [List.cons_append, List.cons_append, List.cons_lt_cons_iff, List.cons_lt_cons_iff,
        ih (Nat.succ.inj h), List.cons.injEq]
      tauto

end Payroll.Text
