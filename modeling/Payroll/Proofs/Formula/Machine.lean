import Payroll.Formula.Machine

namespace Payroll.Formula.Machine

/-!
# What holds behind a step

A step comes out with a result or stops, and leaves the cursor somewhere.  What is claimed of both
is proved from step to step, in the order in which they are carried out.

* `Holds`, `Holds.bind` — what holds where a step comes out and where it stops, and what holds of
  steps in a row.
* `holds_peek`, `holds_advance`, `holds_expect`, `holds_enter`, `holds_leave` — what holds of the
  smallest steps.
-/

/-- `P` holds of the result and the cursor if the step comes out, and `E` of the reason and the
    cursor if not. -/
def Holds {α : Type} (x : Step α) (c : Cursor) (P : α → Cursor → Prop) (E : Stop → Cursor → Prop) :
    Prop :=
  match outcome x c with
  | (.ok a, c') => P a c'
  | (.error s, c') => E s c'

section

variable {α β : Type} {x : Step α} {f : α → Step β} {c : Cursor} {P P' : α → Cursor → Prop}
  {Q : β → Cursor → Prop} {E E' : Stop → Cursor → Prop} {ts : List Token} {t : Token}

theorem holds_pure {a : α} (h : P a c) : Holds (pure a) c P E := h

theorem holds_throw {s : Stop} (h : E s c) : Holds (throw s) c P E := h

theorem Holds.of_ok {a : α} {c' : Cursor} (h : Holds x c P E) (hx : outcome x c = (.ok a, c')) :
    P a c' := by
  unfold Holds at h
  rw [hx] at h
  exact h

theorem Holds.of_error {s : Stop} {c' : Cursor} (h : Holds x c P E)
    (hx : outcome x c = (.error s, c')) : E s c' := by
  unfold Holds at h
  rw [hx] at h
  exact h

theorem Holds.imp (h : Holds x c P E) (hP : ∀ a c', P a c' → P' a c')
    (hE : ∀ s c', E s c' → E' s c') :
    Holds x c P' E' := by
  unfold Holds
  rcases hx : outcome x c with ⟨_ | _, c'⟩
  · exact hE _ _ (h.of_error hx)
  · exact hP _ _ (h.of_ok hx)

theorem outcome_bind : outcome (x >>= f) c = match outcome x c with
    | (.ok a, c') => outcome (f a) c'
    | (.error s, c') => (.error s, c') := by
  simp only [outcome, ExceptT.run_bind, StateT.run_bind, Id.run_bind]
  rcases (x.run.run c).run with ⟨_ | _, c'⟩ <;> rfl

/-- Steps in a row: the second one goes on where the first one comes out. -/
theorem Holds.bind (hx : Holds x c P E) (hf : ∀ a c', P a c' → Holds (f a) c' Q E) :
    Holds (x >>= f) c Q E := by
  unfold Holds
  rw [outcome_bind]
  rcases h : outcome x c with ⟨_ | a, c'⟩
  · exact hx.of_error h
  · exact hf a c' (hx.of_ok h)

/-- A first step of which it is known what it comes to. -/
theorem holds_bind_of_outcome {a : α} {c' : Cursor} (hx : outcome x c = (.ok a, c'))
    (hf : Holds (f a) c' Q E) :
    Holds (x >>= f) c Q E := by
  unfold Holds at hf ⊢
  rw [outcome_bind, hx]
  exact hf

theorem holds_peek {f : Option Token → Step β} (h : Holds (f ts[c.pos]?) c Q E) :
    Holds (peek ts >>= f) c Q E := h

theorem outcome_advance :
    outcome (advance ts) c = (.ok ts[c.pos]?, if ts[c.pos]?.isSome then c.next else c) := by
  rw [advance]
  change outcome (if ts[c.pos]?.isSome then _ else _) c = _
  split <;> rfl

theorem holds_advance {f : Option Token → Step β} (hend : ts[c.pos]? = none → Holds (f none) c Q E)
    (h : ∀ t, ts[c.pos]? = some t → Holds (f (some t)) c.next Q E) :
    Holds (advance ts >>= f) c Q E := by
  refine holds_bind_of_outcome outcome_advance ?_
  cases ht : ts[c.pos]? with
  | none => exact hend ht
  | some t => exact h t ht

theorem holds_advance_of_some {f : Option Token → Step β} (ht : ts[c.pos]? = some t)
    (h : Holds (f (some t)) c.next Q E) : Holds (advance ts >>= f) c Q E := by
  refine holds_advance (fun hnone => ?_) fun t' ht' => ?_
  · rw [ht] at hnone
    cases hnone
  · obtain rfl : t = t' := Option.some.inj (ht.symm.trans ht')
    exact h

/-- A token that is due is there, or the tokens are refused. -/
theorem holds_expect {f : Unit → Step β} (hend : ts[c.pos]? = none → E (.refused .unexpectedEnd) c)
    (hother : ∀ t', ts[c.pos]? = some t' → t' ≠ t → E (.refused (.unexpectedToken t')) c.next)
    (h : ts[c.pos]? = some t → Holds (f ()) c.next Q E) : Holds (expect ts t >>= f) c Q E := by
  have hexpect : Holds (expect ts t) c (fun _ c' => c' = c.next ∧ ts[c.pos]? = some t) E := by
    refine holds_advance (fun ht => holds_throw (hend ht)) fun t' ht => ?_
    dsimp only
    split
    · rename_i heq
      exact holds_pure ⟨rfl, heq ▸ ht⟩
    · rename_i hne
      exact holds_throw (hother t' ht hne)
  refine hexpect.bind ?_
  rintro _ _ ⟨rfl, ht⟩
  exact h ht

/-- An operand is entered, or it is too deep. -/
theorem holds_enter {f : Unit → Step β}
    (hdeep : maxNesting < c.depth + 1 → E (.refused .nestingTooDeep) c.entered)
    (h : c.depth + 1 ≤ maxNesting → Holds (f ()) c.entered Q E) : Holds (enter >>= f) c Q E := by
  change Holds
    ((if maxNesting < c.depth + 1 then throw (.refused .nestingTooDeep) else pure ()) >>= f)
    c.entered Q E
  split
  · rename_i hlt
    exact hdeep hlt
  · rename_i hle
    exact h (Nat.le_of_not_lt hle)

/-- An operand that has been entered is left. -/
theorem holds_leave {f : Unit → Step β} (hdepth : c.depth ≠ 0) (h : Holds (f ()) c.left Q E) :
    Holds (leave >>= f) c Q E := by
  change Holds ((if c.depth = 0 then throw .underflow else modify Cursor.left) >>= f) c Q E
  rw [if_neg hdepth]
  exact h

end

/-- What needs no cursor leaves it where it is. -/
theorem holds_settle {α : Type} {y : Except FormulaError α} {c : Cursor} {P : α → Cursor → Prop}
    {E : Stop → Cursor → Prop} (h : ∀ a, y = .ok a → P a c)
    (hrefused : ∀ e, y = .error e → E (.refused e) c) :
    Holds (settle y) c P E := by
  cases y with
  | ok a => exact h a rfl
  | error e => exact hrefused e rfl

end Payroll.Formula.Machine
