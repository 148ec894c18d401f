import Payroll.Proofs.Commit.Outcome
import Payroll.Proofs.Table

namespace Payroll

/-!
# A commit is all or nothing

Any call on the store can fail on schedule, the rollback included.  Whatever does, a commit that
answers an error has changed nothing, and one that answers an identifier has added one run.

* `Backend.fst_commitRun_eq_persistence_iff` — the answer is a failure of the store exactly when a
  call other than a rollback failed, and it carries the reason of the first one.
* `Backend.commitRun_all_or_nothing` — **all or nothing**, under every schedule: what becomes of the
  runs, which reason is reported, and that a failed commit can be tried again as if it had not been.
-/

namespace Backend

variable {b : Backend} {s : Submission} {runId : RunId} {now : Int}

/-- The same store and the same calls so far, but no call fails from now on. -/
def mended (b : Backend) : Backend := { b with faults := [], blind := false }

/-- An error leaves the runs as they were. -/
theorem store_commitRun_of_error {e : EngineError} (h : (b.commitRun s runId now).1 = .error e) :
    (b.commitRun s runId now).2.store = b.store := by
  cases hp : s.prepare runId now with
  | error e' => rw [commitRun_of_not_prepare hp]
  | ok d =>
    obtain ⟨calls, _, houtcome, hstore⟩ := commitRun_of_prepare hp
    rw [hstore]
    exact Delivery.snd_verdict_of_error (houtcome.symm.trans h)

/-- A success answers the identifier it was given, and adds the run of the lines under the key that
    was asked for, which was free. -/
theorem store_commitRun_of_ok {id : RunId} (h : (b.commitRun s runId now).1 = .ok id) :
    ∃ d, s.prepare runId now = .ok d ∧ id = runId ∧ b.store.runExists d.key = false ∧
      (b.commitRun s runId now).2.store
        = ⟨b.store.runs.set d.key (.ofLines d.header s.lines)⟩ := by
  cases hp : s.prepare runId now with
  | error e =>
    rw [commitRun_of_not_prepare hp] at h
    cases h
  | ok d =>
    obtain ⟨calls, _, houtcome, hstore⟩ := commitRun_of_prepare hp
    obtain ⟨hid, hfree, hset⟩ := Delivery.snd_verdict_of_ok (houtcome.symm.trans h)
    have hrun : d.header.runId = runId := by
      obtain ⟨period, totals, _, _, _, rfl⟩ := Submission.prepare_eq_ok_iff.1 hp
      rfl
    exact ⟨d, rfl, hid.trans hrun, hfree, hstore.trans hset⟩

/-- **The reported failure.** -/
theorem fst_commitRun_eq_persistence_iff (b : Backend) (s : Submission) (runId : RunId)
    (now : Int) :
    ∃ calls, (b.commitRun s runId now).2.log = calls.reverse ++ b.log ∧
      ∀ message, (b.commitRun s runId now).1 = .error (.persistence message) ↔
        b.firstFailure calls = some message := by
  cases hp : s.prepare runId now with
  | error e =>
    -- No call is made, and errors of the preparation are no failures of the store.
    rw [commitRun_of_not_prepare hp]
    refine ⟨[], rfl, fun message => ?_⟩
    have hvalid := Submission.isValidation_of_prepare hp
    simp only [firstFailure, failures, List.find?_nil, Option.map_none, reduceCtorEq, iff_false]
    intro he
    rw [Except.error.inj he] at hvalid
    cases hvalid
  | ok d =>
    obtain ⟨calls, ha, houtcome, _⟩ := commitRun_of_prepare hp
    refine ⟨calls, ha.log, fun message => ?_⟩
    rw [houtcome]
    exact Delivery.verdict_eq_persistence_iff

/-- **All or nothing.** For every store and every schedule of failures:

    * an error leaves the runs as they were;
    * a success adds one run, under the key that was asked for;
    * a failure of the store is reported exactly when a call other than a rollback failed, with the
      reason of the first one;
    * trying again without failures comes out as if the failed commit had not been. -/
theorem commitRun_all_or_nothing (b : Backend) (s : Submission) (runId : RunId) (now : Int) :
    (∀ e, (b.commitRun s runId now).1 = .error e →
        (b.commitRun s runId now).2.store = b.store) ∧
      (∀ id, (b.commitRun s runId now).1 = .ok id →
        ∃ period run, periodOf s.period = .ok period ∧
          b.store.committedRun? ⟨period, s.payrollType⟩ = none ∧
          (b.commitRun s runId now).2.store.runs.entries
            = b.store.runs.entries ++ [(⟨period, s.payrollType⟩, run)]) ∧
      (∃ calls, (b.commitRun s runId now).2.log = calls.reverse ++ b.log ∧
        ∀ message, (b.commitRun s runId now).1 = .error (.persistence message) ↔
          b.firstFailure calls = some message) ∧
      ∀ e, (b.commitRun s runId now).1 = .error e → ∀ runId' now',
        ((b.commitRun s runId now).2.mended.commitRun s runId' now').1
            = (b.mended.commitRun s runId' now').1 ∧
          ((b.commitRun s runId now).2.mended.commitRun s runId' now').2.store
            = (b.mended.commitRun s runId' now').2.store := by
  refine ⟨fun e h => store_commitRun_of_error h, ?_, fst_commitRun_eq_persistence_iff b s runId now,
    ?_⟩
  · -- A key that is set for the first time is appended.
    intro id h
    obtain ⟨d, hp, _, hfree, hstore⟩ := store_commitRun_of_ok h
    obtain ⟨period, totals, hperiod, _, _, rfl⟩ := Submission.prepare_eq_ok_iff.1 hp
    have habsent : b.store.runs.get? ⟨period, s.payrollType⟩ = none :=
      Table.contains_eq_false_iff.1 hfree
    refine ⟨period, .ofLines (s.header period totals runId now) s.lines, hperiod, habsent, ?_⟩
    rw [hstore]
    exact Table.entries_set habsent
  · -- Without failures a commit looks at the runs only, and these are as they were.
    intro e h runId' now'
    have hstore : (b.commitRun s runId now).2.mended.store = b.mended.store :=
      store_commitRun_of_error h
    exact commitRun_congr rfl rfl hstore

end Backend

end Payroll
