import Payroll.Proofs.Commit.Moves

namespace Payroll

/-!
# The outcome of a commit

A commit makes its calls one after another, and any of them can fail on schedule.  What the commit
answers, and what it leaves in the store, depends on no more than the first such failure and the
runs that were there before.

* `Backend.failures`, `Backend.firstFailure` — of some calls those that fail on schedule, and the
  reason of the first one that is no rollback.
* `Delivery.verdict` — what a commit is to answer and to leave, said without calls.
* `Delivery.run_outcome` — a delivery comes to its verdict.
* `Backend.commitRun_of_prepare`, `Backend.commitRun_of_not_prepare` — a submission comes to the
  verdict on what it is prepared to, or to the error of its preparation.
-/

/-! ### Failures on schedule -/

namespace Backend

/-- Which calls fail on schedule, and why, if the given ones are made one after another. -/
def failures (b : Backend) : List Method → List (Method × String)
  | [] => []
  | m :: calls => ((b.due? m).map fun f => (m, f.reason)).toList ++ (b.counted m).failures calls

/-- Why the first call fails that does and is no rollback. -/
def firstFailure (b : Backend) (calls : List Method) : Option String :=
  ((b.failures calls).find? fun f => f.1 != .rollback).map Prod.snd

/-- What is left of a backend's schedule after some calls is that of the other backend. -/
structure After (b : Backend) (calls : List Method) (b' : Backend) : Prop where
  faults : b'.faults = b.faults
  log : b'.log = calls.reverse ++ b.log

theorem After.refl (b : Backend) : b.After [] b := ⟨rfl, rfl⟩

theorem After.counted {b b' : Backend} {calls : List Method} (h : b.After calls b') (m : Method) :
    b.After (calls ++ [m]) (b'.counted m) :=
  ⟨h.faults, by simp [h.log]⟩

/-- The schedule looks at the faults and at the calls so far only. -/
theorem due?_congr {b b' : Backend} (hf : b'.faults = b.faults) (hl : b'.log = b.log)
    (m : Method) : b'.due? m = b.due? m := by
  rw [due?, due?, hf, hl]

theorem failures_concat {b b' : Backend} {calls : List Method} (h : b.After calls b')
    (m : Method) :
    b.failures (calls ++ [m])
      = b.failures calls ++ ((b'.due? m).map fun f => (m, f.reason)).toList := by
  induction calls generalizing b with
  | nil => simp [failures, due?_congr h.faults h.log]
  | cons c rest ih =>
    -- The schedule goes on from where the first call has left it.
    have hrest : (b.counted c).After rest b' :=
      ⟨h.faults, by rw [h.log, List.reverse_cons, List.append_assoc]; rfl⟩
    rw [List.cons_append, failures, failures, ih hrest, List.append_assoc]

/-- A call that does its work is no failure. -/
theorem firstFailure_concat_of_not_due {b b' : Backend} {calls : List Method}
    (h : b.After calls b') {m : Method} (hdue : b'.due? m = none) :
    b.firstFailure (calls ++ [m]) = b.firstFailure calls := by
  rw [firstFailure, failures_concat h, hdue]
  simp [firstFailure]

/-- A call that fails is the first failure, unless there was one already. -/
theorem firstFailure_concat_of_due {b b' : Backend} {calls : List Method}
    (h : b.After calls b') (hnone : b.firstFailure calls = none) {m : Method} {f : Fault}
    (hdue : b'.due? m = some f) (hm : m ≠ .rollback) :
    b.firstFailure (calls ++ [m]) = some f.reason := by
  rw [firstFailure, Option.map_eq_none_iff] at hnone
  rw [firstFailure, failures_concat h, hdue, List.find?_append, hnone]
  simp [hm]

/-- What comes behind the first failure, a rollback for instance, does not change it. -/
theorem firstFailure_concat_of_some {b b' : Backend} {calls : List Method}
    (h : b.After calls b') {reason : String} (hsome : b.firstFailure calls = some reason)
    (m : Method) : b.firstFailure (calls ++ [m]) = some reason := by
  rw [firstFailure, Option.map_eq_some_iff] at hsome
  obtain ⟨failure, hfind, hreason⟩ := hsome
  rw [firstFailure, failures_concat h, List.find?_append, hfind, Option.some_or, Option.map_some,
    hreason]

/-- Without faults nothing fails. -/
theorem firstFailure_eq_none {b : Backend} (h : b.faults = []) (calls : List Method) :
    b.firstFailure calls = none := by
  have hnil : b.failures calls = [] := by
    induction calls generalizing b with
    | nil => rfl
    | cons m rest ih =>
      rw [failures, due?_eq_none h m, ih ((counted_faults b m).trans h)]
      rfl
  rw [firstFailure, hnil]
  rfl

end Backend

/-! ### Verdicts -/

namespace Delivery

variable {d : Delivery} {run : CommittedRun}

/-- What a delivery is to answer and which store it is to leave, given the first failure. -/
def verdict (d : Delivery) (run : CommittedRun) (store : Store) :
    Option String → Except EngineError RunId × Store
  | some reason => (.error (.persistence reason), store)
  | none =>
    if store.runExists d.key then (.error (.commitConflict d.key), store)
    else (.ok d.header.runId, ⟨store.runs.set d.key run⟩)

theorem verdict_of_taken {store : Store} (h : store.runExists d.key = true) :
    d.verdict run store none = (.error (.commitConflict d.key), store) := by
  simp [verdict, h]

theorem verdict_of_free {store : Store} (h : store.runExists d.key = false) :
    d.verdict run store none = (.ok d.header.runId, ⟨store.runs.set d.key run⟩) := by
  simp [verdict, h]

theorem verdict_eq_persistence_iff {store : Store} {failure : Option String} {message : String} :
    (d.verdict run store failure).1 = .error (.persistence message) ↔ failure = some message := by
  cases failure with
  | some reason => simp [verdict]
  | none => cases h : store.runExists d.key <;> simp [verdict, h]

/-- A refusal leaves the store as it was. -/
theorem snd_verdict_of_error {store : Store} {failure : Option String} {e : EngineError}
    (h : (d.verdict run store failure).1 = .error e) : (d.verdict run store failure).2 = store := by
  cases failure with
  | some reason => rfl
  | none =>
    cases hr : store.runExists d.key with
    | true => rw [verdict_of_taken hr]
    | false => rw [verdict_of_free hr] at h; cases h

/-- A success answers the identifier and adds the run, whose key was free. -/
theorem snd_verdict_of_ok {store : Store} {failure : Option String} {id : RunId}
    (h : (d.verdict run store failure).1 = .ok id) :
    id = d.header.runId ∧ store.runExists d.key = false ∧
      (d.verdict run store failure).2 = ⟨store.runs.set d.key run⟩ := by
  cases failure with
  | some reason => cases h
  | none =>
    cases hr : store.runExists d.key with
    | true => rw [verdict_of_taken hr] at h; cases h
    | false =>
      rw [verdict_of_free hr] at h ⊢
      exact ⟨(Except.ok.inj h).symm, rfl, rfl⟩

/-- What holds on the way of a delivery that set out from a backend: until the end the runs are as
    they were, and nothing has failed unless it is being undone. -/
def Underway (d : Delivery) (run : CommittedRun) (b : Backend) (calls : List Method)
    (stage : Stage) (b' : Backend) : Prop :=
  match stage with
  | .finished outcome => (outcome, b'.store) = d.verdict run b.store (b.firstFailure calls)
  | .undoing cause =>
    b'.store = b.store ∧ ∃ reason, cause = .fault reason ∧ b.firstFailure calls = some reason
  | _ => b'.store = b.store ∧ b.firstFailure calls = none

/-- A failing call that ends the delivery brings it to its verdict. -/
theorem verdict_of_due {b b' : Backend} {calls : List Method} (h : b.After calls b')
    (hs : b'.store = b.store) (hnone : b.firstFailure calls = none) {m : Method} {f : Fault}
    (hdue : b'.due? m = some f) (hm : m ≠ .rollback) :
    (.error (.persistence f.reason), (b'.counted m).store)
      = d.verdict run b.store (b.firstFailure (calls ++ [m])) := by
  rw [Backend.firstFailure_concat_of_due h hnone hdue hm, verdict, Backend.counted_store, hs]

/-- Every move stays on the way, with at most one call more. -/
theorem Move.underway {b b' b'' : Backend} {calls : List Method} {stage stage' : Stage}
    (ha : b.After calls b') (hu : d.Underway run b calls stage b')
    (h : d.Move run b' stage stage' b'') :
    ∃ calls', b.After calls' b'' ∧ d.Underway run b calls' stage' b'' := by
  cases h with
  -- Failures that end the delivery at once.
  | checkFails due =>
    exact ⟨_, ha.counted _, verdict_of_due ha hu.1 hu.2 due (by decide)⟩
  | startFails due =>
    exact ⟨_, ha.counted _, verdict_of_due ha hu.1 hu.2 due (by decide)⟩
  | commitFails due =>
    exact ⟨_, ha.counted _, verdict_of_due ha hu.1 hu.2 due (by decide)⟩
  -- The key is taken, at the check or only when the rows are to become visible.
  | refused due taken =>
    refine ⟨_, ha.counted _, ?_⟩
    rw [Underway, Backend.firstFailure_concat_of_not_due ha due, hu.2, Backend.counted_store, hu.1]
    exact (verdict_of_taken (hu.1 ▸ taken)).symm
  | overtaken due taken =>
    refine ⟨_, ha.counted _, ?_⟩
    rw [Underway, Backend.firstFailure_concat_of_not_due ha due, hu.2, Backend.counted_store, hu.1]
    exact (verdict_of_taken (hu.1 ▸ taken)).symm
  -- Calls that do their work.
  | passes due =>
    exact ⟨_, ha.counted _, hu.1, (Backend.firstFailure_concat_of_not_due ha due).trans hu.2⟩
  | starts due =>
    exact ⟨_, ha.counted _, hu.1, (Backend.firstFailure_concat_of_not_due ha due).trans hu.2⟩
  | inserts due taken =>
    exact ⟨_, ha.counted _, hu.1, (Backend.firstFailure_concat_of_not_due ha due).trans hu.2⟩
  -- An insertion that fails is the first failure, and is kept in mind while it is undone.
  | @insertFails f tx row rest due =>
    have hm : row.method ≠ .rollback := by cases row <;> simp [Row.method]
    exact ⟨_, ha.counted _, hu.1, f.reason, rfl,
      Backend.firstFailure_concat_of_due ha hu.2 due hm⟩
  | commits due free =>
    refine ⟨_, ⟨(ha.counted .commit).faults, (ha.counted .commit).log⟩, ?_⟩
    rw [Underway, Backend.firstFailure_concat_of_not_due ha due, hu.2]
    rw [verdict_of_free (hu.1 ▸ free), hu.1]
  | undoes =>
    -- Whether the rollback fails or not, the first failure stays what it was.
    obtain ⟨hs, reason, hcause, hfirst⟩ := hu
    obtain rfl := StoreError.fault.inj hcause
    refine ⟨_, ha.counted .rollback, ?_⟩
    rw [Underway, Backend.firstFailure_concat_of_some ha hfirst, verdict, Backend.counted_store, hs]
  | rests => exact ⟨calls, ha, hu⟩

/-- **The outcome of a delivery.** Whatever fails on schedule, the delivery answers, and leaves,
    what the verdict says for its first failure. -/
theorem run_outcome (hd : d.Makes run) (b : Backend) :
    ∃ calls, b.After calls (d.run .checking b).2 ∧
      (d.run .checking b).1 = (d.verdict run b.store (b.firstFailure calls)).1 ∧
      (d.run .checking b).2.store = (d.verdict run b.store (b.firstFailure calls)).2 := by
  have hend : ∃ calls, b.After calls (d.run .checking b).2 ∧
      d.Underway run b calls (.finished (d.run .checking b).1) (d.run .checking b).2 :=
    run_invariant hd
      (P := fun stage b' => ∃ calls, b.After calls b' ∧ d.Underway run b calls stage b')
      (fun ⟨_, ha, hu⟩ hmove => hmove.underway ha hu) trivial ⟨[], .refl b, rfl, rfl⟩
  obtain ⟨calls, ha, hu⟩ := hend
  exact ⟨calls, ha, congrArg Prod.fst hu, congrArg Prod.snd hu⟩

end Delivery

/-! ### Submissions -/

namespace Backend

variable {b : Backend} {s : Submission} {runId : RunId} {now : Int}

/-- What cannot be prepared is refused, and no call is made. -/
theorem commitRun_of_not_prepare {e : EngineError} (h : s.prepare runId now = .error e) :
    b.commitRun s runId now = (.error e, b) := by
  rw [commitRun, h]

/-- What can be prepared comes to its verdict. -/
theorem commitRun_of_prepare {d : Delivery} (h : s.prepare runId now = .ok d) :
    ∃ calls, b.After calls (b.commitRun s runId now).2 ∧
      (b.commitRun s runId now).1
        = (d.verdict (.ofLines d.header s.lines) b.store (b.firstFailure calls)).1 ∧
      (b.commitRun s runId now).2.store
        = (d.verdict (.ofLines d.header s.lines) b.store (b.firstFailure calls)).2 := by
  rw [commitRun, h]
  exact Delivery.run_outcome (Submission.makes_of_prepare h) b

/-- A commit does not change what fails on schedule. -/
theorem faults_commitRun (b : Backend) (s : Submission) (runId : RunId) (now : Int) :
    (b.commitRun s runId now).2.faults = b.faults := by
  cases h : s.prepare runId now with
  | error e => rw [commitRun_of_not_prepare h]
  | ok d =>
    obtain ⟨calls, ha, _, _⟩ := commitRun_of_prepare h
    exact ha.faults

/-- Without faults the verdict is that of no failure. -/
theorem commitRun_of_no_faults (hb : b.faults = []) {d : Delivery}
    (h : s.prepare runId now = .ok d) :
    (b.commitRun s runId now).1 = (d.verdict (.ofLines d.header s.lines) b.store none).1 ∧
      (b.commitRun s runId now).2.store
        = (d.verdict (.ofLines d.header s.lines) b.store none).2 := by
  obtain ⟨calls, _, houtcome, hstore⟩ := commitRun_of_prepare h
  rw [firstFailure_eq_none hb] at houtcome hstore
  exact ⟨houtcome, hstore⟩

/-- **Without faults** submittable lines are kept under a free key. -/
theorem commitRun_of_submittable (hb : b.faults = []) {period : Period} {totals : RunTotals}
    (hp : periodOf s.period = .ok period) (hl : Submittable s.lines)
    (ht : RunTotals.ofLines? s.lines = some totals)
    (hfree : b.store.runExists ⟨period, s.payrollType⟩ = false) (runId : RunId) (now : Int) :
    (b.commitRun s runId now).1 = .ok runId ∧
      (b.commitRun s runId now).2.store = ⟨b.store.runs.set ⟨period, s.payrollType⟩
        (.ofLines (s.header period totals runId now) s.lines)⟩ := by
  obtain ⟨houtcome, hstore⟩ := commitRun_of_no_faults hb
    (Submission.prepare_eq_ok_iff.2 ⟨period, totals, hp, hl, ht, rfl⟩)
  rw [Delivery.verdict_of_free hfree] at houtcome hstore
  exact ⟨houtcome, hstore⟩

/-- Without faults only the runs matter, and not the calls that have been. -/
theorem commitRun_congr {b' : Backend} (hb : b.faults = []) (hb' : b'.faults = [])
    (hs : b'.store = b.store) :
    (b'.commitRun s runId now).1 = (b.commitRun s runId now).1 ∧
      (b'.commitRun s runId now).2.store = (b.commitRun s runId now).2.store := by
  -- Preparing looks at the submission only.
  cases h : s.prepare runId now with
  | error e =>
    rw [commitRun_of_not_prepare h, commitRun_of_not_prepare h]
    exact ⟨rfl, hs⟩
  | ok d =>
    obtain ⟨houtcome, hstore⟩ := commitRun_of_no_faults hb h
    obtain ⟨houtcome', hstore'⟩ := commitRun_of_no_faults hb' h
    rw [houtcome, hstore, houtcome', hstore', hs]
    exact ⟨rfl, rfl⟩

end Backend

end Payroll
