import Payroll.Table

namespace Payroll

/-!
# Tables and their entries

What looking up a key says about the entries of a table.

* `Table.get?_eq_some_iff` — a key has a value exactly when the two form an entry: keys are
  distinct, so that no earlier entry can hide a later one.
* `Table.entries_set` — giving a value to a new key appends one entry and touches no other.
* `Table.get?_foldl_set` — setting keys one after another hides what they had before,
  and nothing else.
* `Table.ofList_eq` — distinct keys make a table of just their entries.
* `Table.mapValues` — another value for every key.
-/

namespace Table

variable {κ α : Type}

/-- The entries make up a table. -/
theorem eq_of_entries {t u : Table κ α} (h : t.entries = u.entries) : t = u := by
  cases t
  cases u
  exact (Table.mk.injEq ..).mpr h

/-! ### Other values -/

/-- The same keys with other values. -/
def mapValues {β : Type} (f : α → β) (t : Table κ α) : Table κ β where
  entries := t.entries.map fun e => (e.1, f e.2)
  nodup := by
    rw [List.map_map]
    exact t.nodup

/-- The values, by the age of their keys. -/
def values (t : Table κ α) : List α := t.entries.map Prod.snd

@[simp] theorem values_mapValues {β : Type} (f : α → β) (t : Table κ α) :
    (t.mapValues f).values = t.values.map f := by
  rw [values, values, mapValues, List.map_map, List.map_map]
  rfl

/-- A table stays as it is exactly if its values do. -/
theorem mapValues_eq_self_iff {f : α → α} {t : Table κ α} :
    t.mapValues f = t ↔ ∀ v ∈ t.values, f v = v := by
  have hentries : t.mapValues f = t ↔ t.entries.map (fun e => (e.1, f e.2)) = t.entries.map id := by
    rw [List.map_id]
    exact ⟨fun h => congrArg entries h, fun h => eq_of_entries h⟩
  rw [hentries, List.map_inj_left, values, List.forall_mem_map]
  exact forall₂_congr fun e _ => ⟨fun h => congrArg Prod.snd h, fun h => Prod.ext rfl h⟩

variable [DecidableEq κ]

/-! ### Look-up and membership -/

/-- What is found is there. -/
theorem mem_of_find?_eq_some {k : κ} {v : α} {es : List (κ × α)} (h : find? k es = some v) :
    (k, v) ∈ es := by
  induction es with
  | nil => simp [find?] at h
  | cons e es ih =>
    by_cases hk : e.1 = k
    · simp only [find?, hk, if_true, Option.some.injEq] at h
      rw [← hk, ← h]
      exact List.mem_cons_self
    · simp only [find?, hk, if_false] at h
      exact List.mem_cons_of_mem e (ih h)

/-- What is there is found, for the keys are distinct. -/
theorem find?_eq_some_of_mem {k : κ} {v : α} {es : List (κ × α)}
    (hd : (es.map Prod.fst).Nodup) (h : (k, v) ∈ es) : find? k es = some v := by
  induction es with
  | nil => simp at h
  | cons e es ih =>
    rw [List.map_cons, List.nodup_cons] at hd
    rcases List.mem_cons.1 h with rfl | htail
    · simp [find?]
    · -- The first entry has another key, or this key would occur twice.
      have hk : e.1 ≠ k := by
        rintro rfl
        exact hd.1 (List.mem_map.2 ⟨(e.1, v), htail, rfl⟩)
      simp only [find?, hk, if_false]
      exact ih hd.2 htail

/-- **Look-up is membership.** -/
theorem get?_eq_some_iff {t : Table κ α} {k : κ} {v : α} :
    t.get? k = some v ↔ (k, v) ∈ t.entries :=
  ⟨mem_of_find?_eq_some, find?_eq_some_of_mem t.nodup⟩

theorem contains_eq_false_iff {t : Table κ α} {k : κ} :
    t.contains k = false ↔ t.get? k = none := by
  simp [contains]

/-! ### New keys -/

/-- A key that is not found is appended. -/
theorem upsert_of_find?_eq_none {k : κ} {v : α} {es : List (κ × α)} (h : find? k es = none) :
    upsert k v es = es ++ [(k, v)] := by
  induction es with
  | nil => rfl
  | cons e es ih =>
    by_cases hk : e.1 = k
    · simp [find?, hk] at h
    · simp only [find?, hk, if_false] at h
      simp only [upsert, hk, if_false, ih h, List.cons_append]

/-- Setting a new key appends one entry. -/
theorem entries_set {t : Table κ α} {k : κ} {v : α} (h : t.get? k = none) :
    (t.set k v).entries = t.entries ++ [(k, v)] :=
  upsert_of_find?_eq_none h

/-- A key that is not among the entries is not found. -/
theorem find?_eq_none_of_notMem {k : κ} {es : List (κ × α)} (h : k ∉ es.map Prod.fst) :
    find? k es = none := by
  cases hfound : find? k es with
  | none => rfl
  | some v => exact absurd (List.mem_map.2 ⟨_, mem_of_find?_eq_some hfound, rfl⟩) h

/-- **Setting keys one after another** hides the values that they had, and no others. -/
theorem get?_foldl_set {t : Table κ α} {es : List (κ × α)} (hd : (es.map Prod.fst).Nodup) (k : κ) :
    (es.foldl (fun t e => t.set e.1 e.2) t).get? k = (find? k es).or (t.get? k) := by
  induction es generalizing t with
  | nil => rfl
  | cons e es ih =>
    rw [List.map_cons, List.nodup_cons] at hd
    rw [List.foldl_cons, ih hd.2, get?_set]
    by_cases hk : e.1 = k
    · -- The key does not occur again, so that its new value is not replaced.
      subst hk
      rw [find?_eq_none_of_notMem hd.1]
      simp [find?]
    · simp [find?, hk, Ne.symm hk]

/-- Setting new keys one after another appends their entries. -/
theorem entries_foldl_set {t : Table κ α} {es : List (κ × α)} (hd : (es.map Prod.fst).Nodup)
    (hnew : ∀ k ∈ es.map Prod.fst, k ∉ t.entries.map Prod.fst) :
    (es.foldl (fun t e => t.set e.1 e.2) t).entries = t.entries ++ es := by
  induction es generalizing t with
  | nil => exact (List.append_nil _).symm
  | cons e es ih =>
    rw [List.map_cons, List.nodup_cons] at hd
    rw [List.map_cons, List.forall_mem_cons] at hnew
    have hset : (t.set e.1 e.2).entries = t.entries ++ [e] :=
      entries_set (find?_eq_none_of_notMem hnew.1)
    have hrest : ∀ k ∈ es.map Prod.fst, k ∉ (t.set e.1 e.2).entries.map Prod.fst := by
      intro k hk hmem
      rw [hset, List.map_append, List.mem_append] at hmem
      rcases hmem with hold | hlast
      · exact hnew.2 k hk hold
      · obtain rfl := List.mem_singleton.1 hlast
        exact hd.1 hk
    rw [List.foldl_cons, ih hd.2 hrest, hset, List.append_assoc, List.singleton_append]

/-- **Distinct keys** make a table of just their entries. -/
theorem ofList_eq {es : List (κ × α)} (h : (es.map Prod.fst).Nodup) : ofList es = ⟨es, h⟩ :=
  eq_of_entries (entries_foldl_set h fun _ _ => List.not_mem_nil)

end Table

end Payroll
