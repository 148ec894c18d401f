import Payroll.Proofs.Run.Preview

namespace Payroll

/-!
# How a preview ends

A preview ends in one of five ways.  Nobody may be eligible; there may be nothing to evaluate; the
salary of a worker or a sum over the lines may be out of bounds; or else there is a run.

* `EngineConfig.Overflows`, `Line.SumOverflows` — what is out of bounds: a scaled salary, or a
  figure added to the sum of those before it.
* `RunTotals.ofLines?_eq_none_iff` — totals are out of bounds exactly if one of the four sums is.
* `PayrollRun.Ends`, `PayrollRun.preview_ends` — **the ways in which a preview ends**.
* `PayrollRun.preview_eq_noEligibleWorkers_iff`, `PayrollRun.preview_eq_noActiveConcepts_iff`,
  `PayrollRun.preview_eq_amountOutOfRange_iff`, `PayrollRun.exists_preview_eq_ok_iff` — when it
  ends in which.
-/

/-! ### Amounts out of bounds -/

/-- The salary of the worker, scaled for the type of run, is out of bounds. -/
def EngineConfig.Overflows (config : EngineConfig) (t : PayrollType) (worker : Worker) : Prop :=
  worker.basicSalary.mul (config.multiplier t) = none

namespace Line

/-- The figures over which lines are summed. -/
def figures : List (Line → Decimal) := [totalEarnings, totalDeductions, totalContributions, netPay]

/-- Somewhere in the lines, the figure brings the sum of those before it out of bounds. -/
def SumOverflows (figure : Line → Decimal) (lines : List Line) : Prop :=
  ∃ before line after sum, lines = before ++ line :: after ∧
    Decimal.sum? (before.map figure) = some sum ∧ sum.add (figure line) = none

variable {config : EngineConfig} {key : RunKey} {plan : ConceptPlan} {worker : Worker}

/-- There is no line exactly if the scaled salary is out of bounds. -/
theorem compute_eq_error_iff {e : EngineError} :
    compute config key plan worker = .error e ↔ config.Overflows key.payrollType worker ∧
      e = .amountOutOfRange
        (.salary worker.basicSalary worker.id (config.multiplier key.payrollType)) := by
  unfold compute EngineConfig.scaledSalary EngineConfig.Overflows
  cases worker.basicSalary.mul (config.multiplier key.payrollType) with
  | some salary => simp [bind, Except.bind, pure, Except.pure]
  | none => simp [bind, Except.bind, eq_comm]

/-- Only of sums of which every part is within bounds there is a sum. -/
theorem sum?_eq_none_iff {figure : Line → Decimal} {lines : List Line} :
    Decimal.sum? (lines.map figure) = none ↔ SumOverflows figure lines := by
  rw [Decimal.sum?, foldlM_eq_none_iff]
  constructor
  · rintro ⟨_, _, _, sum, hsplit, hbefore, hnone⟩
    obtain ⟨before, rest, rfl, rfl, hrest⟩ := List.map_eq_append_iff.1 hsplit
    obtain ⟨line, after, rfl, rfl, rfl⟩ := List.map_eq_cons_iff.1 hrest
    exact ⟨before, line, after, sum, rfl, hbefore, hnone⟩
  · rintro ⟨before, line, after, sum, rfl, hbefore, hnone⟩
    exact ⟨before.map figure, figure line, after.map figure, sum, by simp, hbefore, hnone⟩

end Line

/-- **Totals are out of bounds** exactly if one of the four sums is. -/
theorem RunTotals.ofLines?_eq_none_iff {lines : List Line} :
    ofLines? lines = none ↔ ∃ figure ∈ Line.figures, Line.SumOverflows figure lines := by
  simp only [← Line.sum?_eq_none_iff, Line.figures, List.mem_cons, List.not_mem_nil, or_false,
    exists_eq_or_imp, exists_eq_left]
  unfold ofLines?
  cases Decimal.sum? (lines.map Line.totalEarnings) with
  | none => simp
  | some earnings =>
    cases Decimal.sum? (lines.map Line.totalDeductions) with
    | none => simp
    | some deductions =>
      cases Decimal.sum? (lines.map Line.totalContributions) with
      | none => simp
      | some contributions => cases Decimal.sum? (lines.map Line.netPay) <;> simp

namespace PayrollRun

/-! ### Endings -/

/-- The ways in which a preview for the staff ends. -/
inductive Ends (config : EngineConfig) (key : RunKey) (scope : Scope) (staff : List Worker)
    (plan : ConceptPlan) (now : Int) : Except EngineError PayrollRun → Prop
  | nobody (nobody : staff = []) :
      Ends config key scope staff plan now (.error (.noEligibleWorkers scope))
  | nothing (somebody : staff ≠ []) (nothing : plan.isEmpty = true) :
      Ends config key scope staff plan now (.error .noActiveConcepts)
  /-- The salary of a worker is out of bounds, and none of those before. -/
  | salary {before after : List Worker} {worker : Worker} {lines : List Line}
      (something : plan.isEmpty = false) (split : staff = before ++ worker :: after)
      (computed : List.Forall₂ (fun w line => Line.compute config key plan w = .ok line)
        before lines)
      (overflows : config.Overflows key.payrollType worker) :
      Ends config key scope staff plan now (.error (.amountOutOfRange
        (.salary worker.basicSalary worker.id (config.multiplier key.payrollType))))
  /-- Every line can be computed, but their totals are out of bounds. -/
  | totals {lines : List Line} (somebody : staff ≠ []) (something : plan.isEmpty = false)
      (computed : List.Forall₂ (fun w line => Line.compute config key plan w = .ok line)
        staff lines)
      (overflows : ∃ figure ∈ Line.figures, Line.SumOverflows figure lines) :
      Ends config key scope staff plan now (.error (.amountOutOfRange (.totals key)))
  | run {lines : List Line} {totals : RunTotals} (somebody : staff ≠ [])
      (something : plan.isEmpty = false)
      (computed : List.Forall₂ (fun w line => Line.compute config key plan w = .ok line)
        staff lines)
      (summed : RunTotals.ofLines? lines = some totals) :
      Ends config key scope staff plan now
        (.ok ⟨key, scope, .preview, totals, lines, now, currentVersion⟩)

variable {config : EngineConfig} {key : RunKey} {scope : Scope} {workers : List Worker}
  {plan : ConceptPlan} {now : Int}

/-- **Every preview** ends in one of these ways. -/
theorem preview_ends (config : EngineConfig) (key : RunKey) (scope : Scope) (workers : List Worker)
    (plan : ConceptPlan) (now : Int) :
    Ends config key scope (eligible scope workers) plan now
      (preview config key scope workers plan now) := by
  by_cases hstaff : eligible scope workers = []
  · simp only [preview, hstaff, List.isEmpty_nil, if_true]
    exact .nobody rfl
  cases hplan : plan.isEmpty with
  | true =>
    simp only [preview, List.isEmpty_iff, hstaff, hplan]
    exact .nothing hstaff hplan
  | false =>
    rw [preview_eq_bind hstaff hplan]
    cases hlines : (eligible scope workers).mapM (Line.compute config key plan) with
    | error e =>
      -- The first salary that is too large ends the run.
      obtain ⟨before, worker, after, lines, hsplit, hbefore, herror⟩ := mapM_eq_error_iff.1 hlines
      obtain ⟨hoverflows, rfl⟩ := Line.compute_eq_error_iff.1 herror
      exact .salary hplan hsplit hbefore hoverflows
    | ok lines =>
      have hcomputed := mapM_eq_ok_iff.1 hlines
      show Ends _ _ _ _ _ _ (totalsOf key lines >>= _)
      cases htotals : totalsOf key lines with
      | error e =>
        obtain ⟨hnone, rfl⟩ := totalsOf_eq_error_iff.1 htotals
        exact .totals hstaff hplan hcomputed (RunTotals.ofLines?_eq_none_iff.1 hnone)
      | ok totals => exact .run hstaff hplan hcomputed (totalsOf_eq_ok_iff.1 htotals)

/-! ### Endings by their errors -/

theorem preview_eq_noEligibleWorkers_iff :
    preview config key scope workers plan now = .error (.noEligibleWorkers scope) ↔
      eligible scope workers = [] := by
  have hends := preview_ends config key scope workers plan now
  generalize preview config key scope workers plan now = outcome at hends ⊢
  cases hends with
  | nobody hnobody => simpa using hnobody
  | nothing hsomebody => simpa using hsomebody
  | salary _ hsplit => simp [hsplit]
  | totals hsomebody => simpa using hsomebody
  | run hsomebody => simpa using hsomebody

theorem preview_eq_noActiveConcepts_iff :
    preview config key scope workers plan now = .error .noActiveConcepts ↔
      eligible scope workers ≠ [] ∧ plan.isEmpty = true := by
  have hends := preview_ends config key scope workers plan now
  generalize preview config key scope workers plan now = outcome at hends ⊢
  cases hends with
  | nobody hnobody => simp [hnobody]
  | nothing hsomebody hnothing => simp [hsomebody, hnothing]
  | salary hsomething => simp [hsomething]
  | totals _ hsomething => simp [hsomething]
  | run _ hsomething => simp [hsomething]

/-- An amount of a run for the staff is out of bounds: the salary of somebody, or a sum
    over all lines. -/
def OutOfBounds (config : EngineConfig) (key : RunKey) (staff : List Worker) (plan : ConceptPlan) :
    Prop :=
  (∃ worker ∈ staff, config.Overflows key.payrollType worker) ∨
    ∃ lines, List.Forall₂ (fun w line => Line.compute config key plan w = .ok line) staff lines ∧
      ∃ figure ∈ Line.figures, Line.SumOverflows figure lines

/-- Nothing is out of bounds if the lines can be computed and have totals. -/
theorem not_outOfBounds {staff : List Worker} {lines : List Line} {totals : RunTotals}
    (hcomputed : List.Forall₂ (fun w line => Line.compute config key plan w = .ok line) staff lines)
    (htotals : RunTotals.ofLines? lines = some totals) : ¬ OutOfBounds config key staff plan := by
  rintro (⟨worker, hworker, hoverflows⟩ | ⟨lines', hcomputed', hoverflows⟩)
  · obtain ⟨line, _, hline⟩ := exists_mem_of_forall₂ hcomputed.flip worker hworker
    rw [Line.compute_eq_error_iff.2 ⟨hoverflows, rfl⟩] at hline
    cases hline
  · -- The lines of workers are determined.
    obtain rfl :=
      Except.ok.inj ((mapM_eq_ok_iff.2 hcomputed').symm.trans (mapM_eq_ok_iff.2 hcomputed))
    rw [RunTotals.ofLines?_eq_none_iff.2 hoverflows] at htotals
    cases htotals

theorem preview_eq_amountOutOfRange_iff :
    (∃ amount, preview config key scope workers plan now = .error (.amountOutOfRange amount)) ↔
      eligible scope workers ≠ [] ∧ plan.isEmpty = false ∧
        OutOfBounds config key (eligible scope workers) plan := by
  have hends := preview_ends config key scope workers plan now
  generalize preview config key scope workers plan now = outcome at hends ⊢
  cases hends with
  | nobody hnobody => simp [hnobody]
  | nothing hsomebody hnothing => simp [hnothing]
  | @salary before after worker lines hsomething hsplit hcomputed hoverflows =>
    refine ⟨fun _ => ⟨by simp [hsplit], hsomething, .inl ⟨worker, by simp [hsplit], hoverflows⟩⟩,
      fun _ => ⟨_, rfl⟩⟩
  | totals hsomebody hsomething hcomputed hoverflows =>
    exact ⟨fun _ => ⟨hsomebody, hsomething, .inr ⟨_, hcomputed, hoverflows⟩⟩, fun _ => ⟨_, rfl⟩⟩
  | run hsomebody hsomething hcomputed hsummed =>
    refine ⟨?_, fun h => absurd h.2.2 (not_outOfBounds hcomputed hsummed)⟩
    rintro ⟨amount, hamount⟩
    cases hamount

/-- **There is a run** whenever somebody is eligible, some concept is in use and no amount is
    out of bounds. -/
theorem exists_preview_eq_ok_iff :
    (∃ run, preview config key scope workers plan now = .ok run) ↔
      eligible scope workers ≠ [] ∧ plan.isEmpty = false ∧
        ¬ OutOfBounds config key (eligible scope workers) plan := by
  have hends := preview_ends config key scope workers plan now
  have hrange :
      (∃ amount, preview config key scope workers plan now
        = .error (.amountOutOfRange amount)) ↔ _ :=
    preview_eq_amountOutOfRange_iff
  generalize preview config key scope workers plan now = outcome at hends hrange ⊢
  cases hends with
  | nobody hnobody => simp [hnobody]
  | nothing hsomebody hnothing => simp [hnothing]
  | salary =>
    obtain ⟨_, _, hout⟩ := hrange.1 ⟨_, rfl⟩
    simp [hout]
  | totals =>
    obtain ⟨_, _, hout⟩ := hrange.1 ⟨_, rfl⟩
    simp [hout]
  | run hsomebody hsomething hcomputed hsummed =>
    exact ⟨fun _ => ⟨hsomebody, hsomething, not_outOfBounds hcomputed hsummed⟩, fun _ => ⟨_, rfl⟩⟩

end PayrollRun

end Payroll
