import Payroll.Engine
import Payroll.Proofs.Commit.AllOrNothing
import Payroll.Proofs.Run.Preview

namespace Payroll

/-!
# Consistency of committed runs

Whatever is asked of an engine, with lines that callers have edited at will and with calls that fail
on schedule, the runs that it keeps are consistent.

* `CommittedRun.Consistent` — all that is meant by that, for a run and the key it is kept under.
* `CommittedRun.consistent_ofLines` — lines that pass the checks make up a consistent run.
* `Engine.serve_consistent` — no request breaks the consistency of the store.
* `Engine.serveAll_consistent` — hence **every run kept by an engine is consistent**.
-/

/-! ### Consistent runs -/

/-- The rows of a run belong together, its lines balance, and its totals are those of its lines. -/
structure CommittedRun.Consistent (key : RunKey) (run : CommittedRun) : Prop where
  /-- The run is kept under the key of its header. -/
  key_eq : run.header.key = key
  nonempty : run.details ≠ []
  /-- Detail rows are numbered from zero. -/
  place : ∀ (i : Nat) (row : DetailRow), run.details[i]? = some row → row.lineIndex = i
  runId_detail : ∀ row ∈ run.details, row.runId = run.header.runId
  runId_application : ∀ row ∈ run.applications, row.runId = run.header.runId
  distinct : (run.details.map DetailRow.workerId).Nodup
  named : ∀ row ∈ run.details, ∃ c ∈ row.workerId.toList, Text.isBlank c = false
  balanced : ∀ row ∈ run.details,
    ∃ net, row.totalEarnings.sub row.totalDeductions = some net ∧ net.SameValue row.netPay
  nonzero : ∀ row ∈ run.applications, row.application.amount.isZero = false
  owned : ∀ row ∈ run.applications, ∃ detail ∈ run.details, detail.workerId = row.workerId
  /-- The rows of the first worker come first, then those of the second one, and so on. -/
  grouped : run.applications = run.details.flatMap fun detail =>
    run.applications.filter fun row => row.workerId == detail.workerId
  totals : RunTotals.ofLines? run.toPayrollRun.lines = some run.header.totals
  workerCount : run.header.totals.workerCount = run.details.length

/-- Applications of zero do not count for the totals. -/
theorem RunTotals.ofLines?_map_withoutZeros (lines : List Line) :
    ofLines? (lines.map Line.withoutZeros) = ofLines? lines := by
  simp [ofLines?, List.map_map, Function.comp_def, Line.withoutZeros]

/-- Balance as an equation. -/
theorem Line.isBalanced_iff {line : Line} :
    line.isBalanced = true ↔
      ∃ net, line.totalEarnings.sub line.totalDeductions = some net ∧
        net.SameValue line.netPay := by
  rw [Line.isBalanced, Option.any_eq_true]
  simp only [decide_eq_true_eq]

/-- **Lines that pass the checks** make up a consistent run. -/
theorem CommittedRun.consistent_ofLines {header : RunHeader} {lines : List Line}
    (hl : Submittable lines) (ht : RunTotals.ofLines? lines = some header.totals) :
    (ofLines header lines).Consistent header.key where
  key_eq := rfl
  nonempty := by
    intro h
    have hlen := congrArg List.length h
    rw [ofLines, length_detailRowsFrom] at hlen
    exact hl.nonempty (List.length_eq_zero_iff.1 hlen)
  place := by
    -- The rows are numbered from zero when they are made.
    intro i row h
    rw [ofLines, getElem?_detailRowsFrom, Option.map_eq_some_iff] at h
    obtain ⟨line, _, rfl⟩ := h
    exact Nat.zero_add i
  runId_detail := by
    intro row h
    obtain ⟨i, line, _, rfl⟩ := mem_detailRowsFrom h
    rfl
  runId_application := by
    intro row h
    obtain ⟨line, _, hrow⟩ := List.mem_flatMap.1 h
    obtain ⟨a, _, rfl⟩ := List.mem_map.1 hrow
    rfl
  distinct := by
    rw [ofLines, map_workerId_detailRowsFrom]
    exact hl.distinct
  named := by
    intro row h
    obtain ⟨i, line, hline, rfl⟩ := mem_detailRowsFrom h
    exact Text.all_isBlank_eq_false_iff.1 (hl.named line hline)
  balanced := by
    intro row h
    obtain ⟨i, line, hline, rfl⟩ := mem_detailRowsFrom h
    exact Line.isBalanced_iff.1 (hl.balanced line hline)
  nonzero := by
    intro row h
    obtain ⟨line, _, hrow⟩ := List.mem_flatMap.1 h
    obtain ⟨a, ha, rfl⟩ := List.mem_map.1 hrow
    simpa using (List.mem_filter.1 ha).2
  owned := by
    -- The worker of the line that the row comes from has a detail row, as every line has.
    intro row h
    obtain ⟨line, hline, hrow⟩ := List.mem_flatMap.1 h
    have hmem : line.workerId ∈ (ofLines header lines).details.map DetailRow.workerId := by
      rw [ofLines, map_workerId_detailRowsFrom]
      exact List.mem_map_of_mem hline
    obtain ⟨detail, hdetail, hid⟩ := List.mem_map.1 hmem
    exact ⟨detail, hdetail, hid.trans (workerId_of_mem_applicationRows hrow).symm⟩
  grouped := by
    -- Group by the workers of the lines, which are those of the detail rows.
    have hgroup : ∀ line ∈ lines,
        (applicationRowsOf header.runId lines).filter (fun row => row.workerId == line.workerId)
          = line.applicationRows header.runId :=
      fun line hline => filter_applicationRowsOf header.runId hl.distinct hline
    have hworkers := map_workerId_detailRowsFrom header.runId 0 lines
    calc applicationRowsOf header.runId lines
        = lines.flatMap fun line => (applicationRowsOf header.runId lines).filter
            fun row => row.workerId == line.workerId :=
          congrArg List.flatten (List.map_congr_left hgroup).symm
      _ = (lines.map Line.workerId).flatMap fun workerId =>
            (applicationRowsOf header.runId lines).filter fun row => row.workerId == workerId := by
          rw [List.flatMap_map]
      _ = _ := by
          rw [← hworkers, List.flatMap_map]
          rfl
  totals := by
    -- The zeros that reading back loses do not count.
    show RunTotals.ofLines? (ofLines header lines).lines = some header.totals
    rw [lines_ofLines header hl.distinct, RunTotals.ofLines?_map_withoutZeros, ht]
  workerCount := by
    show header.totals.workerCount = (detailRowsFrom header.runId 0 lines).length
    rw [length_detailRowsFrom, (RunTotals.ofLines?_eq_some_iff.1 ht).1]

/-- All runs of a store are consistent. -/
def Store.Consistent (store : Store) : Prop :=
  ∀ key run, store.committedRun? key = some run → run.Consistent key

theorem Store.consistent_empty : ({} : Store).Consistent := by
  intro key run h
  cases h

/-- A commit keeps the store consistent, whatever it answers. -/
theorem Backend.commitRun_consistent {b : Backend} (hb : b.store.Consistent) (s : Submission)
    (runId : RunId) (now : Int) : (b.commitRun s runId now).2.store.Consistent := by
  cases h : (b.commitRun s runId now).1 with
  | error e =>
    rw [store_commitRun_of_error h]
    exact hb
  | ok id =>
    obtain ⟨d, hp, _, _, hstore⟩ := store_commitRun_of_ok h
    obtain ⟨period, totals, _, hl, ht, rfl⟩ := Submission.prepare_eq_ok_iff.1 hp
    rw [hstore]
    intro key run hrun
    rw [Store.committedRun?, Table.get?_set] at hrun
    -- A run is the new one, or it was there before.
    split at hrun
    · rename_i hkey
      obtain rfl := Option.some.inj hrun
      rw [hkey]
      exact CommittedRun.consistent_ofLines hl ht
    · exact hb key run hrun

/-! ### Requests -/

namespace Engine

theorem store_committedRun? (engine : Engine) (periodText : String) (payrollType : PayrollType) :
    (engine.committedRun? periodText payrollType).2.backend.store = engine.backend.store := by
  unfold committedRun?
  cases periodOf periodText with
  | error e => rfl
  | ok period =>
    cases h : engine.backend.due? .committedRun with
    | some f => simp [Backend.committedRun?, Backend.call_of_due h]
    | none => simp [Backend.committedRun?, Backend.call_of_not_due h]

/-- No request breaks the consistency of the store. -/
theorem serve_consistent {engine : Engine} (h : engine.backend.store.Consistent)
    (request : Request) : (engine.serve request).backend.store.Consistent := by
  cases request with
  | preview period payrollType scope now => exact h
  | commit s runId now => exact Backend.commitRun_consistent h s runId now
  | committedRun period payrollType =>
    rw [serve, store_committedRun?]
    exact h

/-- **Every run is consistent** that an engine keeps after requests of any kind, if it set out with
    an empty store.  Which calls on the store fail, and when, does not matter. -/
theorem serveAll_consistent (engine : Engine) (h : engine.backend.store = {})
    (requests : List Request) : (engine.serveAll requests).backend.store.Consistent := by
  have hstart : engine.backend.store.Consistent := by
    rw [h]
    exact Store.consistent_empty
  clear h
  induction requests generalizing engine with
  | nil => exact hstart
  | cons request rest ih => exact ih (engine.serve request) (serve_consistent hstart request)

/-- The store loses the first detail row, and then even the rollback. -/
def flaky : Engine where
  backend := { faults := [⟨.insertDetail, 1, "disk full"⟩, ⟨.rollback, 1, "connection lost"⟩] }

/-- A commit, the same commit once more, and a look at what has become of it. -/
def twice : List Request :=
  let lines : List Line :=
    [⟨"w1", "40112233", "Ana Quispe", .hundred, .hundred, .zero, .zero, .hundred,
      [⟨"c1", "BASE", "Base", .earning, .hundred⟩, ⟨"c2", "AFP", "Pension", .deduction, .zero⟩]⟩]
  [.commit ⟨"2025-03", .regular, .all, lines⟩ ⟨0⟩ 0,
    .commit ⟨"2025-03", .regular, .all, lines⟩ ⟨1⟩ 1,
    .committedRun "2025-03" .regular]

theorem serveAll_consistent_flaky :
    flaky.backend.store = {} ∧ (flaky.serveAll twice).backend.store.count = 1 ∧
      (flaky.serveAll twice).backend.store.Consistent :=
  ⟨rfl, by decide +kernel, serveAll_consistent flaky rfl twice⟩

end Engine

end Payroll
