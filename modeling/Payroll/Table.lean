namespace Payroll

/-!
# Finite tables

A table assigns values to finitely many keys.  Keys stay in the order in which they were first
given, and no key occurs twice: that is part of the type.

Main definitions:

* `Table`: the entries, their keys being distinct.
* `Table.get?`, `Table.set`, `Table.erase`: look-up, addition or replacement, removal.
* `Table.ofList`: the table of a list of entries, the last one of each key.

Main statements: what `get?` answers after `set` and after `erase`.
-/

variable {κ α : Type}

/-- Entries with distinct keys. -/
structure Table (κ : Type) (α : Type) where
  /-- The entries, by the age of their keys. -/
  entries : List (κ × α)
  nodup : (entries.map Prod.fst).Nodup
  deriving DecidableEq

namespace Table

/-- The table without entries. -/
def empty : Table κ α := ⟨[], List.nodup_nil⟩

instance : Inhabited (Table κ α) := ⟨empty⟩

/-- The number of keys. -/
def size (t : Table κ α) : Nat := t.entries.length

/-- The keys, by age. -/
def keys (t : Table κ α) : List κ := t.entries.map Prod.fst

variable [DecidableEq κ]

/-- The value of the first entry for `k`. -/
def find? (k : κ) : List (κ × α) → Option α
  | [] => none
  | e :: es => if e.1 = k then some e.2 else find? k es

/-- The list with the value of `k` replaced, or a new entry at its end. -/
def upsert (k : κ) (v : α) : List (κ × α) → List (κ × α)
  | [] => [(k, v)]
  | e :: es => if e.1 = k then (k, v) :: es else e :: upsert k v es

theorem mem_keys_upsert {k k' : κ} {v : α} {es : List (κ × α)} :
    k' ∈ (upsert k v es).map Prod.fst ↔ k' = k ∨ k' ∈ es.map Prod.fst := by
  induction es with
  | nil => simp [upsert]
  | cons e es ih =>
    by_cases h : e.1 = k
    · simp [upsert, h]
    · simp only [upsert, h, if_false, List.map_cons, List.mem_cons, ih]
      exact or_left_comm

theorem nodup_upsert {k : κ} {v : α} {es : List (κ × α)} (h : (es.map Prod.fst).Nodup) :
    ((upsert k v es).map Prod.fst).Nodup := by
  induction es with
  | nil => simp [upsert]
  | cons e es ih =>
    simp only [List.map_cons, List.nodup_cons] at h
    by_cases hk : e.1 = k
    · simp only [upsert, hk, if_true, List.map_cons, List.nodup_cons]
      exact ⟨hk ▸ h.1, h.2⟩
    · simp only [upsert, hk, if_false, List.map_cons, List.nodup_cons]
      exact ⟨fun hm => (mem_keys_upsert.1 hm).elim hk h.1, ih h.2⟩

/-- The value of a key, if it has one. -/
def get? (t : Table κ α) (k : κ) : Option α := find? k t.entries

/-- Does the key have a value? -/
def contains (t : Table κ α) (k : κ) : Bool := (t.get? k).isSome

/-- Gives a key a value, replacing the one it had. -/
def set (t : Table κ α) (k : κ) (v : α) : Table κ α :=
  ⟨upsert k v t.entries, nodup_upsert t.nodup⟩

/-- Removes a key and its value. -/
def erase (t : Table κ α) (k : κ) : Table κ α :=
  ⟨t.entries.filter fun e => decide (e.1 ≠ k),
    List.Nodup.sublist (List.filter_sublist.map Prod.fst) t.nodup⟩

/-- The table of the entries; of entries with the same key the last one counts. -/
def ofList (es : List (κ × α)) : Table κ α := es.foldl (fun t e => t.set e.1 e.2) empty

/-! ### Look-up after a change -/

theorem find?_upsert (k k' : κ) (v : α) (es : List (κ × α)) :
    find? k' (upsert k v es) = if k' = k then some v else find? k' es := by
  induction es with
  | nil => simp [upsert, find?, eq_comm]
  | cons e es ih =>
    by_cases he : e.1 = k
    · subst he
      by_cases h : k' = e.1 <;> simp [upsert, find?, h, eq_comm]
    · by_cases h : k' = k
      · simp_all [upsert, find?]
      · simp [upsert, he, find?, ih, h]

theorem find?_filter (k k' : κ) (es : List (κ × α)) :
    find? k' (es.filter fun e => decide (e.1 ≠ k)) = if k' = k then none else find? k' es := by
  induction es with
  | nil => simp [find?]
  | cons e es ih =>
    by_cases he : e.1 = k
    · by_cases h : k' = k
      · simp_all
      · simp_all [find?, eq_comm]
    · by_cases h : k' = k <;> simp_all [find?]

@[simp] theorem get?_empty (k : κ) : (empty : Table κ α).get? k = none := rfl

/-- After setting `k`, it has the new value, and other keys are as before. -/
theorem get?_set (t : Table κ α) (k k' : κ) (v : α) :
    (t.set k v).get? k' = if k' = k then some v else t.get? k' :=
  find?_upsert k k' v t.entries

/-- After erasing `k`, it has no value, and other keys are as before. -/
theorem get?_erase (t : Table κ α) (k k' : κ) :
    (t.erase k).get? k' = if k' = k then none else t.get? k' :=
  find?_filter k k' t.entries

end Table

end Payroll
