import Mathlib.Data.List.Sort

namespace Payroll

/-!
# Sorting and grouping

What does not change when a list is sorted by a key, or put together again from the groups
of its keys.

* `pairwise_mergeSort_key` — keys come in order.
* `filter_mergeSort_key` — **sorting is stable**: elements of one key stay in their order.
* `mergeSort_key_eq_of_perm` — a list with distinct keys is sorted in only one way.
* `flatMap_filter_perm` — **grouping loses and repeats nothing**.
-/

variable {α κ : Type}

section

variable [LinearOrder κ] (key : α → κ)

/-- Keys are compared in a total order. -/
theorem pairwise_mergeSort_key (xs : List α) :
    (xs.mergeSort fun a b => decide (key a ≤ key b)).Pairwise fun a b => key a ≤ key b := by
  have hsorted : (xs.mergeSort fun a b => decide (key a ≤ key b)).Pairwise
      fun a b => decide (key a ≤ key b) = true :=
    List.pairwise_mergeSort
      (fun a b c hab hbc => decide_eq_true ((of_decide_eq_true hab).trans (of_decide_eq_true hbc)))
      (fun a b => by simpa using le_total (key a) (key b)) xs
  exact hsorted.imp of_decide_eq_true

/-- **Sorting is stable**: of elements that all have one key, those that a test selects stay
    in their order. -/
theorem filter_mergeSort_key {xs : List α} {p : α → Bool}
    (h : ∀ a ∈ xs, ∀ b ∈ xs, p a = true → p b = true → key a = key b) :
    (xs.mergeSort fun a b => decide (key a ≤ key b)).filter p = xs.filter p := by
  have hperm := (List.mergeSort_perm xs fun a b => decide (key a ≤ key b)).filter p
  -- The selected elements are in order as they are, and what is in order is kept by sorting.
  have hordered : (xs.filter p).Pairwise fun a b => decide (key a ≤ key b) = true := by
    refine List.pairwise_of_forall_mem_list fun a ha b hb => decide_eq_true (le_of_eq ?_)
    obtain ⟨ha, hpa⟩ := List.mem_filter.1 ha
    obtain ⟨hb, hpb⟩ := List.mem_filter.1 hb
    exact h a ha b hb hpa hpb
  have hkept : (xs.filter p).Sublist (xs.mergeSort fun a b => decide (key a ≤ key b)) :=
    List.sublist_mergeSort
      (fun a b c hab hbc => decide_eq_true ((of_decide_eq_true hab).trans (of_decide_eq_true hbc)))
      (fun a b => by simpa using le_total (key a) (key b)) hordered List.filter_sublist
  have hselected := hkept.filter p
  simp only [List.filter_filter, Bool.and_self] at hselected
  exact (hselected.eq_of_length hperm.length_eq.symm).symm

/-- **Distinct keys** leave one way to sort a list, whatever order it comes in. -/
theorem mergeSort_key_eq_of_perm {xs ys : List α} (hperm : ys.Perm xs)
    (hkeys : (xs.map key).Nodup) :
    (ys.mergeSort fun a b => decide (key a ≤ key b))
      = xs.mergeSort fun a b => decide (key a ≤ key b) := by
  have hxs := List.mergeSort_perm xs fun a b => decide (key a ≤ key b)
  have hys := List.mergeSort_perm ys fun a b => decide (key a ≤ key b)
  refine List.Perm.eq_of_pairwise (fun a b ha hb hab hba => ?_) (pairwise_mergeSort_key key ys)
    (pairwise_mergeSort_key key xs) (hys.trans (hperm.trans hxs.symm))
  exact List.inj_on_of_nodup_map hkeys ((hys.trans hperm).mem_iff.1 ha) (hxs.mem_iff.1 hb)
    (le_antisymm hab hba)

end

/-- **Grouping loses and repeats nothing**: the groups of different keys, among which are those of
    all elements, make up the list again. -/
theorem flatMap_filter_perm [DecidableEq κ] {keys : List κ} (hkeys : keys.Nodup) {key : α → κ}
    {xs : List α} (h : ∀ x ∈ xs, key x ∈ keys) :
    (keys.flatMap fun k => xs.filter fun x => key x == k).Perm xs := by
  induction keys generalizing xs with
  | nil =>
    have hnone : xs = [] := List.eq_nil_iff_forall_not_mem.2 fun x hx => List.not_mem_nil (h x hx)
    rw [hnone]
    exact List.Perm.nil
  | cons k ks ih =>
    rw [List.nodup_cons] at hkeys
    -- The other groups are those of the elements with another key.
    have hothers : ∀ k' ∈ ks, (xs.filter fun x => key x == k')
        = (xs.filter fun x => !(key x == k)).filter fun x => key x == k' := by
      intro k' hk'
      rw [List.filter_filter]
      refine List.filter_congr fun x _ => ?_
      by_cases hx : key x = k'
      · have hne : key x ≠ k := fun heq => hkeys.1 (heq ▸ hx ▸ hk')
        simp [hx, hx ▸ hne]
      · simp [hx]
    have hrest : ∀ x ∈ xs.filter (fun x => !(key x == k)), key x ∈ ks := by
      intro x hx
      obtain ⟨hx, hne⟩ := List.mem_filter.1 hx
      exact (List.mem_cons.1 (h x hx)).resolve_left (by simpa using hne)
    rw [List.flatMap_cons, List.flatMap_congr hothers]
    exact ((ih hkeys.2 hrest).append_left _).trans (List.filter_append_perm _ xs)

end Payroll
