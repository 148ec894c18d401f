import Payroll.Engine
import Payroll.Proofs.Commit.Outcome
import Payroll.Proofs.Table

namespace Payroll

/-!
# Previewing, committing and reading back

What is previewed can be committed as it is, and is read back as it was.

* `Engine.preview_eq_ok_iff` — what an engine needs for a preview.
* `PayrollRun.submittable_of_preview` — the lines of a preview pass the checks of a commit, if their
  workers are named and distinct.
* `Engine.read_back_preview` — **a previewed run** is kept by a commit and read back with the
  same totals and the same lines.
-/

/-! ### Previews pass the checks -/

/-- The lines of a preview can be committed, if their workers are named and distinct. -/
theorem PayrollRun.submittable_of_preview {config : EngineConfig} {key : RunKey} {scope : Scope}
    {workers : List Worker} {plan : ConceptPlan} {now : Int} {run : PayrollRun}
    (h : preview config key scope workers plan now = .ok run)
    (hdistinct : (run.lines.map Line.workerId).Nodup)
    (hnamed : ∀ line ∈ run.lines, ∃ c ∈ line.workerId.toList, Text.isBlank c = false) :
    Submittable run.lines where
  nonempty := (totals_of_preview h).1
  named := fun line hline => Text.all_isBlank_eq_false_iff.2 (hnamed line hline)
  distinct := hdistinct
  balanced := isBalanced_of_preview h

/-- The lines of a preview are read back as they were. -/
theorem PayrollRun.lines_ofLines_of_preview {config : EngineConfig} {key : RunKey} {scope : Scope}
    {workers : List Worker} {plan : ConceptPlan} {now : Int} {run : PayrollRun}
    (h : preview config key scope workers plan now = .ok run)
    (hdistinct : (run.lines.map Line.workerId).Nodup) (header : RunHeader) :
    (CommittedRun.ofLines header run.lines).lines = run.lines := by
  -- Reading back loses zeros only, and a preview records none.
  rw [CommittedRun.lines_ofLines header hdistinct]
  calc run.lines.map Line.withoutZeros
      = run.lines.map id := List.map_congr_left fun line hline =>
          Line.withoutZeros_eq_self (isZero_of_preview h line hline)
    _ = run.lines := List.map_id run.lines

namespace Engine

variable {engine : Engine} {periodText : String} {payrollType : PayrollType} {scope : Scope}
  {now : Int} {run : PayrollRun}

/-- What the engine is told is what its collaborator holds. -/
theorem ask_eq_ok_iff {α : Type} {collaborator : Except StoreError α} {a : α} :
    ask collaborator = .ok a ↔ collaborator = .ok a := by
  cases collaborator with
  | error e => simp [ask]
  | ok b => simp [ask]

/-- An engine computes a preview if the text is a period and both roster and catalog can be read. -/
theorem preview_eq_ok_iff :
    engine.preview periodText payrollType scope now = .ok run ↔
      ∃ period workers concepts, periodOf periodText = .ok period ∧
        engine.roster = .ok workers ∧ engine.catalog = .ok concepts ∧
        PayrollRun.preview engine.config ⟨period, payrollType⟩ scope workers
          (.ofConcepts concepts) now = .ok run := by
  unfold preview
  simp only [bind_eq_ok_iff, ask_eq_ok_iff]
  constructor
  · rintro ⟨period, hp, workers, hw, concepts, hc, hrun⟩
    exact ⟨period, workers, concepts, hp, hw, hc, hrun⟩
  · rintro ⟨period, workers, concepts, hp, hw, hc, hrun⟩
    exact ⟨period, hp, workers, hw, concepts, hc, hrun⟩

/-- Without faults the engine reads what the store holds. -/
theorem fst_committedRun?_of_no_faults (hf : engine.backend.faults = []) {period : Period}
    (hp : periodOf periodText = .ok period) :
    (engine.committedRun? periodText payrollType).1
      = .ok ((engine.backend.store.committedRun? ⟨period, payrollType⟩).map
          CommittedRun.toPayrollRun) := by
  have hdue := Backend.due?_eq_none hf .committedRun
  simp [committedRun?, hp, Backend.committedRun?, Backend.call_of_not_due hdue]

/-- **Agreement.** Without faults, and where the key is free, the lines of a preview are committed
    as they are if their workers are named and distinct.  What is read back is the preview, with its
    key, scope, totals and lines, but for the status and the time. -/
theorem read_back_preview (hfaults : engine.backend.faults = [])
    (hpreview : engine.preview periodText payrollType scope now = .ok run)
    (hdistinct : (run.lines.map Line.workerId).Nodup)
    (hnamed : ∀ line ∈ run.lines, ∃ c ∈ line.workerId.toList, Text.isBlank c = false)
    (hfree : engine.backend.store.committedRun? run.key = none) (runId : RunId) (later : Int) :
    checkLines run.lines = .ok () ∧
      (engine.commit ⟨periodText, payrollType, scope, run.lines⟩ runId later).1 = .ok runId ∧
      ((engine.commit ⟨periodText, payrollType, scope, run.lines⟩ runId later).2.committedRun?
          periodText payrollType).1
        = .ok (some { run with status := .committed, computedAt := later }) := by
  obtain ⟨period, workers, concepts, hp, _, _, hrun⟩ := preview_eq_ok_iff.1 hpreview
  have hlines : Submittable run.lines := PayrollRun.submittable_of_preview hrun hdistinct hnamed
  have hread := PayrollRun.lines_ofLines_of_preview hrun hdistinct
  -- From here on the run is spelled out: its totals are those that the commit finds again.
  obtain ⟨_, _, lines, totals, _, htotals, rfl⟩ := PayrollRun.preview_eq_ok_iff.1 hrun
  obtain ⟨houtcome, hstore⟩ := Backend.commitRun_of_submittable hfaults
    (s := ⟨periodText, payrollType, scope, lines⟩) hp hlines htotals
    (Table.contains_eq_false_iff.2 hfree) runId later
  refine ⟨checkLines_eq_ok_iff.2 hlines, houtcome, ?_⟩
  have hfaults' :
      (engine.commit ⟨periodText, payrollType, scope, lines⟩ runId later).2.backend.faults = [] :=
    (Backend.faults_commitRun engine.backend _ runId later).trans hfaults
  -- What is read is what the commit has left under the key.
  rw [fst_committedRun?_of_no_faults hfaults' hp]
  show Except.ok (Option.map _ ((engine.backend.commitRun _ runId later).2.store.committedRun? _))
    = _
  rw [hstore, Store.committedRun?, Table.get?_set, if_pos rfl, Option.map_some,
    CommittedRun.toPayrollRun, hread]
  rfl

/-- Two workers, the roster naming the second one first, with a fixed amount to earn and a
    percentage to be deducted. -/
def office : Engine where
  roster := .ok
    [⟨"w2", "40556677", "Luis", "Mamani", .ofNat 300,
        ⟨2023, 9, 1, by decide, by decide, by decide⟩, .partTime, "plant", 0, .active⟩,
      ⟨"w1", "40112233", "Ana", "Quispe", .hundred,
        ⟨2020, 1, 15, by decide, by decide, by decide⟩, .indefinite, "office", 2, .active⟩]
  catalog := .ok
    [⟨"c1", "BASE", "Base", .earning, .fixed (some .hundred), 1, .active⟩,
      ⟨"c2", "AFP", "Pension", .deduction, .percentage (some (.ofNat 13)), 2, .active⟩]

theorem read_back_preview_office :
    ∃ run, office.preview "2025-03" .regular .all 0 = .ok run ∧
      run.lines.map Line.workerId = ["w2", "w1"] ∧
      ((office.commit ⟨"2025-03", .regular, .all, run.lines⟩ ⟨0⟩ 1).2.committedRun?
          "2025-03" .regular).1
        = .ok (some { run with status := .committed, computedAt := 1 }) := by
  -- Of the preview only the workers need to be computed.
  have hcomputed : (office.preview "2025-03" .regular .all 0).toOption.any
      (fun run => run.lines.map Line.workerId == ["w2", "w1"]) = true := by decide +kernel
  obtain ⟨run, hpreview, htest⟩ := exists_ok_of_any hcomputed
  have hworkers : run.lines.map Line.workerId = ["w2", "w1"] := eq_of_beq htest
  have hdistinct : (run.lines.map Line.workerId).Nodup := by
    rw [hworkers]
    decide
  have hnamed : ∀ line ∈ run.lines, ∃ c ∈ line.workerId.toList, Text.isBlank c = false := by
    intro line hline
    have hid : line.workerId ∈ ["w2", "w1"] := hworkers ▸ List.mem_map_of_mem hline
    have hletter : ∀ id ∈ ["w2", "w1"], 'w' ∈ id.toList := by decide
    exact ⟨'w', hletter _ hid, by decide⟩
  obtain ⟨_, _, hread⟩ := read_back_preview rfl hpreview hdistinct hnamed rfl ⟨0⟩ 1
  exact ⟨run, hpreview, hworkers, hread⟩

end Engine

end Payroll
