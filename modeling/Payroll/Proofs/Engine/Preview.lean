import Payroll.Collaborators
import Payroll.Proofs.Run.Outcome

namespace Payroll

/-!
# Previews over lists

A preview depends on those workers of the roster who are eligible and on those concepts of the
catalog that are in use, and on no others.  So it does not matter whether an engine is given all of
them or only these.

* `Interspersed` — a list with others in between.
* `PayrollRun.preview_interspersed`, `ConceptPlan.ofConcepts_interspersed` — **workers who are not
  eligible and concepts that are not in use** change nothing.
* `Engine.preview_ofLists_eq` — an engine over lists computes the run for these lists.
* `Engine.preview_ofLists` — **how such a preview ends**, and what it depends on.
-/

/-! ### Others in between -/

/-- `Interspersed p xs ys`: the second list is the first one with some others, of which `p` is true,
    anywhere in between. -/
inductive Interspersed {α : Type} (p : α → Prop) : List α → List α → Prop
  | nil : Interspersed p [] []
  | keep {x : α} {xs ys : List α} (rest : Interspersed p xs ys) : Interspersed p (x :: xs) (x :: ys)
  | other {y : α} {xs ys : List α} (other : p y) (rest : Interspersed p xs ys) :
      Interspersed p xs (y :: ys)

/-- What selects none of the others selects the same elements. -/
theorem Interspersed.filter_eq {α : Type} {p : α → Prop} {q : α → Bool} {xs ys : List α}
    (h : Interspersed p xs ys) (hq : ∀ y, p y → q y = false) : ys.filter q = xs.filter q := by
  induction h with
  | nil => rfl
  | keep _ ih => rw [List.filter_cons, List.filter_cons, ih]
  | other hother _ ih => rw [List.filter_cons_of_neg (Bool.eq_false_iff.1 (hq _ hother)), ih]

/-- Selected elements have those in between that are not. -/
theorem interspersed_filter {α : Type} (q : α → Bool) (xs : List α) :
    Interspersed (fun x => q x = false) (xs.filter q) xs := by
  induction xs with
  | nil => exact .nil
  | cons x xs ih =>
    cases hx : q x with
    | true =>
      rw [List.filter_cons_of_pos hx]
      exact ih.keep
    | false =>
      rw [List.filter_cons_of_neg (Bool.eq_false_iff.1 hx)]
      exact ih.other hx

theorem Interspersed.imp {α : Type} {p p' : α → Prop} {xs ys : List α} (h : Interspersed p xs ys)
    (himp : ∀ y, p y → p' y) : Interspersed p' xs ys := by
  induction h with
  | nil => exact .nil
  | keep _ ih => exact ih.keep
  | other hother _ ih => exact ih.other (himp _ hother)

/-- The worker takes no part, or is not in the scope. -/
def Worker.IsLeftOut (scope : Scope) (w : Worker) : Prop :=
  w.isActive = false ∨ scope.includes w.personnelGroup = false

theorem eligible_interspersed {scope : Scope} {workers workers' : List Worker}
    (h : Interspersed (Worker.IsLeftOut scope) workers workers') :
    eligible scope workers' = eligible scope workers :=
  h.filter_eq fun _ => Bool.and_eq_false_iff.2

/-- **Workers who are left out** change nothing. -/
theorem PayrollRun.preview_interspersed (config : EngineConfig) (key : RunKey) {scope : Scope}
    {workers workers' : List Worker} (h : Interspersed (Worker.IsLeftOut scope) workers workers')
    (plan : ConceptPlan) (now : Int) :
    preview config key scope workers' plan now = preview config key scope workers plan now := by
  rw [preview, preview, eligible_interspersed h]

/-- **Concepts that are not in use** change nothing. -/
theorem ConceptPlan.ofConcepts_interspersed {concepts concepts' : List Concept}
    (h : Interspersed (fun c => c.isActive = false) concepts concepts') :
    ofConcepts concepts' = ofConcepts concepts := by
  have hgroup : ∀ t, group concepts' t = group concepts t := by
    intro t
    rw [group, group, h.filter_eq fun c hc => Bool.and_eq_false_iff.2 (.inl hc)]
  rw [ofConcepts, ofConcepts, hgroup, hgroup, hgroup]

/-! ### Engines over lists -/

namespace Engine

/-- **An engine over lists** computes the run for these lists, though its collaborators leave out
    what a run does not need. -/
theorem preview_ofLists_eq (config : EngineConfig) (workers : List Worker) (concepts : List Concept)
    (backend : Backend) (scope : Scope) (text : String) (payrollType : PayrollType) (now : Int) :
    (ofLists config ⟨workers⟩ ⟨concepts⟩ backend scope).preview text payrollType scope now
      = periodOf text >>= fun period =>
          PayrollRun.preview config ⟨period, payrollType⟩ scope workers (.ofConcepts concepts)
            now := by
  refine bind_congr_of_ok fun period _ => ?_
  have hworkers : Interspersed (Worker.IsLeftOut scope) (eligible scope workers) workers :=
    (interspersed_filter _ workers).imp fun _ => Bool.and_eq_false_iff.1
  have hconcepts :=
    ConceptPlan.ofConcepts_interspersed (interspersed_filter Concept.isActive concepts)
  rw [hconcepts, PayrollRun.preview_interspersed _ _ hworkers]
  rfl

/-- **How a preview ends, and what it depends on.**  A run fails for want of workers exactly if
    nobody is eligible, and else for want of concepts exactly if the plan is empty, and else because
    of an amount exactly if the scaled salary of an eligible worker or a sum over the lines is out
    of bounds; else there is a run, with the line of each eligible worker, in the order of the
    roster.  Workers who are left out and concepts that are not in use change nothing, wherever they
    stand; and an engine over lists answers just as if it were given the whole lists. -/
theorem preview_ofLists (config : EngineConfig) (scope : Scope) (workers : List Worker)
    (now : Int) :
    (∀ key plan,
      let staff := eligible scope workers
      let outcome := PayrollRun.preview config key scope workers plan now
      (outcome = .error (.noEligibleWorkers scope) ↔ staff = []) ∧
      (outcome = .error .noActiveConcepts ↔ staff ≠ [] ∧ plan.isEmpty = true) ∧
      ((∃ amount, outcome = .error (.amountOutOfRange amount)) ↔ staff ≠ [] ∧ plan.isEmpty = false ∧
        PayrollRun.OutOfBounds config key staff plan) ∧
      ((∃ run, outcome = .ok run) ↔ staff ≠ [] ∧ plan.isEmpty = false ∧
        ¬ PayrollRun.OutOfBounds config key staff plan) ∧
      (∀ run, outcome = .ok run →
        List.Forall₂ (fun w line => Line.compute config key plan w = .ok line) staff run.lines) ∧
      ∀ workers', Interspersed (Worker.IsLeftOut scope) workers workers' →
        PayrollRun.preview config key scope workers' plan now = outcome) ∧
    ∀ concepts,
      (∀ key concepts', Interspersed (fun c => c.isActive = false) concepts concepts' →
        PayrollRun.preview config key scope workers (.ofConcepts concepts') now
          = PayrollRun.preview config key scope workers (.ofConcepts concepts) now) ∧
      ∀ text payrollType backend,
        (ofLists config ⟨workers⟩ ⟨concepts⟩ backend scope).preview text payrollType scope now
          = periodOf text >>= fun period =>
              PayrollRun.preview config ⟨period, payrollType⟩ scope workers (.ofConcepts concepts)
                now := by
  refine ⟨fun key plan => ?_, fun concepts => ⟨fun key concepts' hconcepts => ?_,
    fun text payrollType backend => ?_⟩⟩
  · intro staff outcome
    refine ⟨PayrollRun.preview_eq_noEligibleWorkers_iff, PayrollRun.preview_eq_noActiveConcepts_iff,
      PayrollRun.preview_eq_amountOutOfRange_iff, PayrollRun.exists_preview_eq_ok_iff,
      fun run hrun => ?_, fun workers' hworkers =>
        PayrollRun.preview_interspersed config key hworkers plan now⟩
    obtain ⟨_, _, lines, totals, hcomputed, _, rfl⟩ := PayrollRun.preview_eq_ok_iff.1 hrun
    exact hcomputed
  · rw [ConceptPlan.ofConcepts_interspersed hconcepts]
  · exact preview_ofLists_eq config workers concepts backend scope text payrollType now

/-- A worker whose salary leaves no room for a greater one. -/
def tycoon : Worker := { Line.clerk with id := "w0", basicSalary := .ofNat Decimal.maxCoefficient }

/-- The salary, and an item that is no longer in use. -/
def items : List Concept :=
  [⟨"c0", "OLD", "Old item", .earning, .fixed (some .hundred), 0, .inactive⟩,
    ⟨"c1", "BASE", "Base", .earning, .percentage (some .hundred), 1, .active⟩]

theorem preview_ofLists_tycoon :
    let depot : List Worker :=
      [{ tycoon with status := .inactive }, { tycoon with personnelGroup := "depot" }]
    let preview :=
      fun workers => (ofLists {} ⟨workers⟩ ⟨items⟩ {} (.group "office")).preview "2025-03"
      .severanceAccrual (.group "office") 0
    (∃ run, preview (depot ++ Line.clerk :: depot) = .ok run ∧
      run.lines.map Line.workerId = ["w1"]) ∧
      preview depot = .error (.noEligibleWorkers (.group "office")) ∧
      ∃ amount, preview [Line.clerk, tycoon] = .error (.amountOutOfRange amount) := by
  intro depot preview
  have hperiod : periodOf "2025-03" = .ok ⟨2025, 3, by decide⟩ := by decide +kernel
  have hpreview : ∀ workers, preview workers
    = PayrollRun.preview {} ⟨⟨2025, 3, by decide⟩, .severanceAccrual⟩
      (.group "office") workers (.ofConcepts items) 0 := by
    intro workers
    have hlists :=
      ((preview_ofLists {} (.group "office") workers 0).2 items).2 "2025-03" .severanceAccrual {}
    rw [hperiod] at hlists
    exact hlists
  have hplan : (ConceptPlan.ofConcepts items).isEmpty = false := by decide +kernel
  refine ⟨?_, ?_, ?_⟩
  · have hcomputed :
      (PayrollRun.preview {} ⟨⟨2025, 3, by decide⟩, .severanceAccrual⟩ (.group "office")
        [Line.clerk] (.ofConcepts items) 0).toOption.any
        (fun run => run.lines.map Line.workerId == ["w1"]) = true := by decide +kernel
    obtain ⟨run, hrun, htest⟩ := exists_ok_of_any hcomputed
    obtain ⟨_, _, _, _, _, hothers⟩ := (preview_ofLists {} (.group "office") [Line.clerk] 0).1
      ⟨⟨2025, 3, by decide⟩, .severanceAccrual⟩ (.ofConcepts items)
    have hinterspersed : Interspersed (Worker.IsLeftOut (.group "office")) [Line.clerk]
        (depot ++ Line.clerk :: depot) :=
      .other (.inl rfl)
        (.other (.inr (by decide)) (.keep (.other (.inl rfl) (.other (.inr (by decide)) .nil))))
    exact ⟨run, (hpreview _).trans ((hothers _ hinterspersed).trans hrun), eq_of_beq htest⟩
  · obtain ⟨hnobody, _⟩ := (preview_ofLists {} (.group "office") depot 0).1
      ⟨⟨2025, 3, by decide⟩, .severanceAccrual⟩ (.ofConcepts items)
    exact (hpreview depot).trans (hnobody.2 (by decide +kernel))
  · obtain ⟨_, _, hrange, _⟩ := (preview_ofLists {} (.group "office") [Line.clerk, tycoon] 0).1
      ⟨⟨2025, 3, by decide⟩, .severanceAccrual⟩ (.ofConcepts items)
    rw [hpreview]
    exact hrange.2 ⟨by decide +kernel, hplan, .inl ⟨tycoon, by decide +kernel, by
      unfold EngineConfig.Overflows
      decide +kernel⟩⟩

end Engine

end Payroll
