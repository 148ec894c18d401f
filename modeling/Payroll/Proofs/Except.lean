import Mathlib.Data.List.Forall2

namespace Payroll

/-!
# Steps that can fail

What it takes for steps in a row to come out well.

* `bind_eq_ok_iff`, `bind_eq_error_iff` — two steps, of which the second one needs the first.
* `bind_congr_of_ok` — two steps, of which the second one can be replaced.
* `map_bind_eq` — two steps, and what they come to for what stands for their results.
* `mapError_eq_ok_iff` — a step whose failures are put in other words.
* `exists_ok_of_any` — a result that passes a test.
* `mapM_eq_ok_iff`, `mapM_eq_error_iff` — the same step for every element of a list.
* `foldlM_eq_none_iff` — a step for every element that goes on from the one before.
-/

variable {ε α β : Type}

/-- A step that follows another one comes out well when both do. -/
theorem bind_eq_ok_iff {x : Except ε α} {f : α → Except ε β} {b : β} :
    (x >>= f) = .ok b ↔ ∃ a, x = .ok a ∧ f a = .ok b := by
  cases x with
  | error e => simp [bind, Except.bind]
  | ok a => simp [bind, Except.bind]

/-- A step that follows another one fails when either does. -/
theorem bind_eq_error_iff {x : Except ε α} {f : α → Except ε β} {e : ε} :
    (x >>= f) = .error e ↔ x = .error e ∨ ∃ a, x = .ok a ∧ f a = .error e := by
  cases x with
  | error e => simp [bind, Except.bind]
  | ok a => simp [bind, Except.bind]

/-- The second step matters only for what the first one can come to. -/
theorem bind_congr_of_ok {x : Except ε α} {f g : α → Except ε β} (h : ∀ a, x = .ok a → f a = g a) :
    (x >>= f) = (x >>= g) := by
  cases x with
  | error e => rfl
  | ok a => exact h a rfl

/-- Whatever is made of the results, two steps in a row can be followed side by side. -/
theorem map_bind_eq {α' β' : Type} {x : Except ε α} {f : α → Except ε β} {v : α → α'} {w : β → β'}
    {g : α' → Except ε β'} (h : ∀ a, x = .ok a → (f a).map w = g (v a)) :
    (x >>= f).map w = x.map v >>= g := by
  cases x with
  | error e => rfl
  | ok a => exact h a rfl

/-- What failures are called makes no difference to a result. -/
theorem mapError_eq_ok_iff {ε' : Type} {x : Except ε α} {f : ε → ε'} {a : α} :
    x.mapError f = .ok a ↔ x = .ok a := by
  cases x <;> simp [Except.mapError]

/-- What holds of the result, if there is one, can be decided on it. -/
instance decidableForallOk {x : Except ε α} {p : α → Prop} [∀ a, Decidable (p a)] :
    Decidable (∀ a, x = .ok a → p a) :=
  match x with
  | .ok a => decidable_of_iff (p a) ⟨fun h _ ha => Except.ok.inj ha ▸ h, fun h => h a rfl⟩
  | .error _ => isTrue fun _ h => nomatch h

/-- What passes a test has come out well. -/
theorem exists_ok_of_any {x : Except ε α} {p : α → Bool} (h : x.toOption.any p = true) :
    ∃ a, x = .ok a ∧ p a = true := by
  cases x with
  | error e => cases h
  | ok a => exact ⟨a, rfl, h⟩

/-- A step for every element comes out well when all of them do, and its results are in order. -/
theorem mapM_eq_ok_iff {f : α → Except ε β} {xs : List α} {ys : List β} :
    xs.mapM f = .ok ys ↔ List.Forall₂ (fun x y => f x = .ok y) xs ys := by
  induction xs generalizing ys with
  | nil =>
    rw [List.mapM_nil, List.forall₂_nil_left_iff]
    exact ⟨fun h => (Except.ok.inj h).symm, fun h => congrArg Except.ok h.symm⟩
  | cons x xs ih =>
    rw [List.mapM_cons, List.forall₂_cons_left_iff, bind_eq_ok_iff]
    simp only [bind_eq_ok_iff, ih]
    constructor
    · rintro ⟨y, hy, rest, hrest, hys⟩
      exact ⟨y, rest, hy, hrest, (Except.ok.inj hys).symm⟩
    · rintro ⟨y, rest, hy, hrest, rfl⟩
      exact ⟨y, hy, rest, hrest, rfl⟩

/-- It fails as it does for the first element for which it fails. -/
theorem mapM_eq_error_iff {f : α → Except ε β} {xs : List α} {e : ε} :
    xs.mapM f = .error e ↔ ∃ before x after ys, xs = before ++ x :: after ∧
      List.Forall₂ (fun x y => f x = .ok y) before ys ∧ f x = .error e := by
  induction xs with
  | nil =>
    rw [List.mapM_nil]
    constructor
    · intro h
      cases h
    · rintro ⟨before, x, after, _, hsplit, _⟩
      exact absurd hsplit.symm
        (List.append_ne_nil_of_right_ne_nil before (List.cons_ne_nil x after))
  | cons x xs ih =>
    rw [List.mapM_cons, bind_eq_error_iff]
    constructor
    · rintro (herror | ⟨y, hy, hrest⟩)
      · exact ⟨[], x, xs, [], rfl, .nil, herror⟩
      · rcases bind_eq_error_iff.1 hrest with hrest | ⟨_, _, hpure⟩
        · obtain ⟨before, x', after, ys, rfl, hbefore, herror⟩ := ih.1 hrest
          exact ⟨x :: before, x', after, y :: ys, rfl, .cons hy hbefore, herror⟩
        · cases hpure
    · rintro ⟨before, x', after, ys, hsplit, hbefore, herror⟩
      cases hbefore with
      | nil =>
        obtain ⟨rfl, rfl⟩ := List.cons.inj hsplit
        exact .inl herror
      | cons hy hbefore =>
        obtain ⟨rfl, rfl⟩ := List.cons.inj hsplit
        exact .inr
          ⟨_, hy, bind_eq_error_iff.2 (.inl (ih.2 ⟨_, x', after, _, rfl, hbefore, herror⟩))⟩

/-- Steps that go on from each other end where one of them fails. -/
theorem foldlM_eq_none_iff {f : β → α → Option β} {start : β} {xs : List α} :
    xs.foldlM f start = none ↔ ∃ before x after b, xs = before ++ x :: after ∧
      before.foldlM f start = some b ∧ f b x = none := by
  induction xs generalizing start with
  | nil => simp
  | cons x xs ih =>
    rw [List.foldlM_cons, Option.bind_eq_bind, Option.bind_eq_none_iff]
    constructor
    · intro h
      cases hx : f start x with
      | none => exact ⟨[], x, xs, start, rfl, rfl, hx⟩
      | some b =>
        obtain ⟨before, x', after, b', rfl, hbefore, hnone⟩ := ih.1 (h b hx)
        refine ⟨x :: before, x', after, b', rfl, ?_, hnone⟩
        rw [List.foldlM_cons, hx]
        exact hbefore
    · rintro ⟨before, x', after, b', hsplit, hbefore, hnone⟩ b hb
      cases before with
      | nil =>
        obtain ⟨rfl, rfl⟩ := List.cons.inj hsplit
        obtain rfl : start = b' := Option.some.inj hbefore
        rw [hb] at hnone
        cases hnone
      | cons y before =>
        obtain ⟨rfl, rfl⟩ := List.cons.inj hsplit
        rw [List.foldlM_cons, hb] at hbefore
        exact ih.2 ⟨before, x', after, b', rfl, hbefore, hnone⟩

/-- Every result of the step comes from an element. -/
theorem exists_mem_of_forall₂ {R : α → β → Prop} {xs : List α} {ys : List β}
    (h : List.Forall₂ R xs ys) : ∀ y ∈ ys, ∃ x ∈ xs, R x y := by
  induction h with
  | nil => simp
  | cons hxy _ ih =>
    intro y hy
    rcases List.mem_cons.1 hy with rfl | htail
    · exact ⟨_, List.mem_cons_self, hxy⟩
    · obtain ⟨x, hx, hR⟩ := ih y htail
      exact ⟨x, List.mem_cons_of_mem _ hx, hR⟩

end Payroll
