import Mathlib.Data.List.Permutation
import Payroll.Proofs.Sorting
import Payroll.Proofs.Store.History
import Payroll.Proofs.Store.Integrity

namespace Payroll

/-!
# Runs put together from their rows

The lines of a run are put together from its detail rows, sorted by their places, and from the
application rows of the worker of each.  Nothing gets lost or counted twice on the way, whatever
places the rows name and in whatever order they were written, because the rows of a run in the
store belong together: workers have one detail row each, and application rows belong to workers
who have one.

* `CommittedRun.sortedDetails` — the detail rows as they are read.
* `CommittedRun.Intact.nodup_lines` — lines belong to different workers.
* `CommittedRun.Intact.existsUnique_line` — **an application row has one line**.
* `CommittedRun.Intact.recorded_perm` — **no application is lost or repeated**.
* `Session.lines_of_committedRun?` — so it is for every run in a store, after any calls.
-/

namespace CommittedRun

variable {key : RunKey} {run : CommittedRun}

/-! ### Lines of rows -/

/-- The detail rows by their places; those of one place stay in the order of writing. -/
def sortedDetails (run : CommittedRun) : List DetailRow :=
  run.details.mergeSort fun a b => decide (a.lineIndex ≤ b.lineIndex)

theorem sortedDetails_perm (run : CommittedRun) : run.sortedDetails.Perm run.details :=
  List.mergeSort_perm _ _

theorem filter_sortedDetails (run : CommittedRun) (place : Nat) :
    run.sortedDetails.filter (fun row => row.lineIndex == place)
      = run.details.filter fun row => row.lineIndex == place := by
  refine filter_mergeSort_key DetailRow.lineIndex fun a _ b _ ha hb => ?_
  exact (eq_of_beq ha).trans (eq_of_beq hb).symm

/-- The applications of lines, each with the worker of its line. -/
def recorded (lines : List Line) : List (String × Application) :=
  lines.flatMap fun line => line.applications.map fun a => (line.workerId, a)

theorem map_workerId_lines (run : CommittedRun) :
    run.lines.map Line.workerId = run.sortedDetails.map DetailRow.workerId := by
  rw [lines, List.map_map]
  rfl

/-- A line holds the applications of its worker, in the order of writing. -/
theorem applications_of_mem_lines {line : Line} (h : line ∈ run.lines) :
    line.applications = run.applicationsOf line.workerId := by
  rw [lines, List.mem_map] at h
  obtain ⟨row, _, rfl⟩ := h
  rfl

/-! ### Intact runs -/

namespace Intact

/-- Lines belong to different workers. -/
theorem nodup_lines (h : run.Intact key) : (run.lines.map Line.workerId).Nodup := by
  rw [map_workerId_lines]
  exact ((run.sortedDetails_perm.map _).nodup_iff).2 h.distinct

/-- The worker of an application row has a line. -/
theorem mem_map_workerId (h : run.Intact key) {row : ApplicationRow}
    (hrow : row ∈ run.applications) :
    row.workerId ∈ run.lines.map Line.workerId := by
  obtain ⟨detail, hdetail, hworker⟩ := h.owned row hrow
  rw [map_workerId_lines, ← hworker]
  exact List.mem_map_of_mem (run.sortedDetails_perm.mem_iff.2 hdetail)

/-- **An application row has one line**, that of its worker, and is among the applications there. -/
theorem existsUnique_line (h : run.Intact key) {row : ApplicationRow}
    (hrow : row ∈ run.applications) :
    ∃! i : Nat, ∃ line, run.lines[i]? = some line ∧ line.workerId = row.workerId ∧
      row.application ∈ line.applications := by
  obtain ⟨line, hline, hworker⟩ := List.mem_map.1 (h.mem_map_workerId hrow)
  obtain ⟨i, hi⟩ := List.mem_iff_getElem?.1 hline
  refine ⟨i, ⟨line, hi, hworker, ?_⟩, ?_⟩
  · rw [applications_of_mem_lines hline, hworker]
    exact List.mem_map_of_mem (List.mem_filter.2 ⟨hrow, beq_self_eq_true _⟩)
  · rintro j ⟨other, hj, hother, _⟩
    -- The two lines have the same worker, and so the same index.
    have hworkers : (run.lines.map Line.workerId)[j]? = (run.lines.map Line.workerId)[i]? := by
      rw [List.getElem?_map, List.getElem?_map, hi, hj, Option.map_some, Option.map_some, hworker,
        hother]
    have hlength : j < (run.lines.map Line.workerId).length := by
      rw [List.length_map]
      exact (List.getElem?_eq_some_iff.1 hj).1
    exact (List.getElem?_inj hlength h.nodup_lines).1 hworkers

/-- **No application is lost or repeated**: over all lines they are those of the stored rows, each
    with the worker that its row names. -/
theorem recorded_perm (h : run.Intact key) :
    (recorded run.lines).Perm
      (run.applications.map fun row => (row.workerId, row.application)) := by
  -- The lines split the application rows by their workers.
  have hline : ∀ line ∈ run.lines, line.applications.map (fun a => (line.workerId, a))
      = (run.applications.filter fun row => row.workerId == line.workerId).map
          fun row => (row.workerId, row.application) := by
    intro line hline
    rw [applications_of_mem_lines hline, applicationsOf, List.map_map]
    refine List.map_congr_left fun row hrow => ?_
    rw [Function.comp_apply, eq_of_beq (List.mem_filter.1 hrow).2]
  have hgroups := (flatMap_filter_perm h.nodup_lines (fun row hrow => h.mem_map_workerId hrow)).map
    fun row => (row.workerId, row.application)
  rw [List.map_flatMap, List.flatMap_map] at hgroups
  rw [recorded, List.flatMap_congr hline]
  exact hgroups

end Intact

end CommittedRun

/-! ### Runs in a store -/

namespace Session

variable {key : RunKey} {run : CommittedRun}

/-- **Runs are put together without loss**, whatever calls have been made on the store.  The rows of
    a run are those that a transaction has taken, each kind in its order.  There is one line for
    each detail row, by their places, and those of one place in the order of insertion.  Every
    application row is in one line, that of its worker, and those of one worker are in the order of
    insertion; over all lines there are as many applications as rows, and the same ones, each with
    the worker that its row names. -/
theorem lines_of_committedRun? (calls : List Call)
    (h : (({} : Session).run calls).store.committedRun? key = some run) :
    Installs calls key run ∧
      (∃ rows : List DetailRow, rows.Perm run.details ∧
        (rows.Pairwise fun a b => a.lineIndex ≤ b.lineIndex) ∧
        (∀ place, rows.filter (fun row => row.lineIndex == place)
          = run.details.filter fun row => row.lineIndex == place) ∧
        run.toPayrollRun.lines = rows.map fun row => row.toLine (run.applicationsOf row.workerId)) ∧
      (∀ row ∈ run.applications, ∃! i : Nat, ∃ line, run.toPayrollRun.lines[i]? = some line ∧
        line.workerId = row.workerId ∧ row.application ∈ line.applications) ∧
      (∀ line ∈ run.toPayrollRun.lines, line.applications
        = (run.applications.filter fun row => row.workerId == line.workerId).map
            ApplicationRow.application) ∧
      (CommittedRun.recorded run.toPayrollRun.lines).Perm
        (run.applications.map fun row => (row.workerId, row.application)) ∧
      (run.toPayrollRun.lines.flatMap Line.applications).Perm
        (run.applications.map ApplicationRow.application) ∧
      (run.toPayrollRun.lines.flatMap Line.applications).length = run.applications.length := by
  have hintact : run.Intact key := ((run_sound (sound_empty False) False.elim).kept key run h).1
  have hpairs := hintact.recorded_perm
  -- Forget the worker of each pair.
  have happlications : (run.lines.flatMap Line.applications).Perm
      (run.applications.map ApplicationRow.application) := by
    have hsecond := hpairs.map Prod.snd
    simpa [CommittedRun.recorded, List.map_flatMap, Function.comp_def] using hsecond
  exact ⟨installs_of_committedRun? h,
    ⟨run.sortedDetails, run.sortedDetails_perm, pairwise_mergeSort_key DetailRow.lineIndex _,
      run.filter_sortedDetails, rfl⟩,
    fun row => hintact.existsUnique_line, fun line => CommittedRun.applications_of_mem_lines,
    hpairs, happlications, happlications.length_eq.trans (List.length_map _)⟩

/-- A detail row of the rivals' run. -/
def detailOf (place : Nat) (workerId : String) : DetailRow :=
  ⟨⟨0⟩, place, workerId, "1", "A B", .one, .one, .zero, .zero, .one⟩

/-- An application row of the rivals' run. -/
def amountOf (workerId code : String) : ApplicationRow :=
  ⟨⟨0⟩, workerId, ⟨code, code, code, .earning, .one⟩⟩

/-- Two transactions at a time.  In the first one, two workers have the same place, a third one
    comes ahead of them though he is written last, the amounts of the workers are mixed up, and
    one is rejected. -/
def tangled : List Call :=
  [.start "a", .start "b", .insert "a" (.header rivalHeader), .insert "b" (.header rivalHeader),
    .insert "a" (.detail (detailOf 7 "w1")), .insert "a" (.application (amountOf "w1" "BASE")),
    .insert "b" (.detail (detailOf 0 "w9")), .insert "a" (.detail (detailOf 7 "w3")),
    .insert "a" (.application (amountOf "w3" "MEAL")),
    .insert "a" (.application (amountOf "w2" "LOST")), .insert "a" (.detail (detailOf 2 "w2")),
    .insert "a" (.application (amountOf "w1" "MEAL")),
    .insert "b" (.application (amountOf "w9" "BASE")),
    .insert "a" (.application (amountOf "w3" "BASE")), .commit "a", .commit "b"]

theorem lines_of_committedRun?_tangled :
    ∃ run, (({} : Session).run tangled).store.committedRun? rivalHeader.key = some run ∧
      run.toPayrollRun.lines.map Line.workerId = ["w2", "w1", "w3"] ∧
      (∀ line ∈ run.toPayrollRun.lines, line.workerId = "w3" →
        line.applications.map Application.code = ["MEAL", "BASE"]) ∧
      ((run.toPayrollRun.lines.flatMap Line.applications).map Application.code).Perm
        ["BASE", "BASE", "MEAL", "MEAL"] := by
  have hcomputed : (({} : Session).run tangled).store.committedRun? rivalHeader.key
      = some ⟨rivalHeader, [detailOf 7 "w1", detailOf 7 "w3", detailOf 2 "w2"],
          [amountOf "w1" "BASE", amountOf "w3" "MEAL", amountOf "w1" "MEAL",
            amountOf "w3" "BASE"]⟩ := by
    decide +kernel
  obtain ⟨_, ⟨rows, hperm, hplaces, hties, hlines⟩, _, happlications, _, hall, _⟩ :=
    lines_of_committedRun? tangled hcomputed
  -- Only one sequence of the detail rows has the places in order and those of one place
  -- as they came.
  have hone : ∀ rows ∈ [detailOf 7 "w1", detailOf 7 "w3", detailOf 2 "w2"].permutations',
      (rows.Pairwise fun a b => a.lineIndex ≤ b.lineIndex) →
      rows.filter (fun row => row.lineIndex == 7) = [detailOf 7 "w1", detailOf 7 "w3"] →
      rows = [detailOf 2 "w2", detailOf 7 "w1", detailOf 7 "w3"] := by decide +kernel
  have hrows := hone rows (List.mem_permutations'.2 hperm) hplaces (hties 7)
  refine ⟨_, hcomputed, by rw [hlines, hrows]; rfl, fun line hline hworker => ?_, ?_⟩
  · rw [happlications line hline, hworker]
    decide +kernel
  · exact (hall.map Application.code).trans (by decide +kernel)

end Session

end Payroll
