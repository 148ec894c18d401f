import Payroll.Proofs.Commit.Checks
import Payroll.Proofs.Commit.Rows

namespace Payroll

/-!
# The moves of a commit

A commit is a machine that makes one call on the store at a time.  This file says once what a move
can be, and what a whole commit comes to.

* `Delivery.Makes` — the rows of the delivery make up a given run; what `Submission.prepare` answers
  always does (`Submission.makes_of_prepare`).
* `Delivery.Move` — the moves: every call fails on schedule or does its work.  `Delivery.move_step`
  says that `Delivery.step` makes one of them; no proof below looks into `step` again.
* `Delivery.run_invariant` — what every move keeps holds when the commit has ended.
-/

/-! ### Calls -/

namespace Backend

/-- The backend once a call of the method has been counted. -/
def counted (b : Backend) (m : Method) : Backend := { b with log := m :: b.log }

@[simp] theorem counted_store (b : Backend) (m : Method) : (b.counted m).store = b.store := rfl
@[simp] theorem counted_faults (b : Backend) (m : Method) : (b.counted m).faults = b.faults := rfl
@[simp] theorem counted_blind (b : Backend) (m : Method) : (b.counted m).blind = b.blind := rfl
@[simp] theorem counted_log (b : Backend) (m : Method) : (b.counted m).log = m :: b.log := rfl

theorem call_of_due {b : Backend} {m : Method} {f : Fault} (h : b.due? m = some f) :
    b.call m = (.error (.fault f.reason), b.counted m) := by
  simp [call, h, counted]

theorem call_of_not_due {b : Backend} {m : Method} (h : b.due? m = none) :
    b.call m = (.ok (), b.counted m) := by
  simp [call, h, counted]

/-- Without faults no call fails on schedule. -/
theorem due?_eq_none {b : Backend} (h : b.faults = []) (m : Method) : b.due? m = none := by
  simp [due?, h]

end Backend

/-! ### Moves -/

/-- The rows of a delivery make up a run: the store takes them one after another, and holds the run
    when all of them are there. -/
structure Delivery.Makes (d : Delivery) (run : CommittedRun) : Prop where
  staged : d.rows.foldlM Transaction.insert {} = .ok (.ofRun run)
  header : run.header = d.header

/-- A stage on the way to a run: the rows that are due complete it, and nothing is undone but for a
    failure on schedule. -/
def Stage.LeadsTo (run : CommittedRun) : Stage → Prop
  | .writing tx due => due.foldlM Transaction.insert tx = .ok (.ofRun run)
  | .undoing cause => ∃ reason, cause = .fault reason
  | _ => True

namespace Delivery

variable {d : Delivery} {run : CommittedRun}

/-- The moves of a delivery that makes a run. -/
inductive Move (d : Delivery) (run : CommittedRun) (b : Backend) : Stage → Stage → Backend → Prop
  | checkFails {f : Fault} (due : b.due? .runExists = some f) :
      Move d run b .checking (.finished (.error (.persistence f.reason))) (b.counted .runExists)
  | refused (due : b.due? .runExists = none) (taken : b.store.runExists d.key = true) :
      Move d run b .checking (.finished (.error (.commitConflict d.key))) (b.counted .runExists)
  | passes (due : b.due? .runExists = none) :
      Move d run b .checking .opening (b.counted .runExists)
  | startFails {f : Fault} (due : b.due? .start = some f) :
      Move d run b .opening (.finished (.error (.persistence f.reason))) (b.counted .start)
  | starts (due : b.due? .start = none) :
      Move d run b .opening (.writing {} d.rows) (b.counted .start)
  | insertFails {f : Fault} {tx : Transaction} {row : Row} {rest : List Row}
      (due : b.due? row.method = some f) :
      Move d run b (.writing tx (row :: rest)) (.undoing (.fault f.reason)) (b.counted row.method)
  | inserts {tx tx' : Transaction} {row : Row} {rest : List Row}
      (due : b.due? row.method = none) (taken : tx.insert row = .ok tx') :
      Move d run b (.writing tx (row :: rest)) (.writing tx' rest) (b.counted row.method)
  | commitFails {f : Fault} (due : b.due? .commit = some f) :
      Move d run b (.writing (.ofRun run) []) (.finished (.error (.persistence f.reason)))
        (b.counted .commit)
  | overtaken (due : b.due? .commit = none) (taken : b.store.runExists d.key = true) :
      Move d run b (.writing (.ofRun run) []) (.finished (.error (.commitConflict d.key)))
        (b.counted .commit)
  | commits (due : b.due? .commit = none) (free : b.store.runExists d.key = false) :
      Move d run b (.writing (.ofRun run) []) (.finished (.ok d.header.runId))
        { b.counted .commit with store := ⟨b.store.runs.set d.key run⟩ }
  | undoes {reason : String} :
      Move d run b (.undoing (.fault reason)) (.finished (.error (.persistence reason)))
        (b.counted .rollback)
  | rests {outcome : Except EngineError RunId} :
      Move d run b (.finished outcome) (.finished outcome) b

/-- Where rows complete a run, the store takes the first of them. -/
theorem insert_of_leadsTo {tx : Transaction} {row : Row} {rest : List Row}
    (h : (Stage.writing tx (row :: rest)).LeadsTo run) :
    ∃ tx', tx.insert row = .ok tx' ∧ (Stage.writing tx' rest).LeadsTo run := by
  rw [Stage.LeadsTo, List.foldlM_cons, bind_eq_ok_iff] at h
  exact h

/-- Where no rows are due, the transaction holds the run. -/
theorem eq_ofRun_of_leadsTo {tx : Transaction} (h : (Stage.writing tx []).LeadsTo run) :
    tx = .ofRun run :=
  Except.ok.inj h

theorem snd_rollback (b : Backend) : b.rollback.2 = b.counted .rollback := by
  cases h : b.due? .rollback with
  | none => rw [Backend.rollback, Backend.call_of_not_due h]
  | some f => rw [Backend.rollback, Backend.call_of_due h]

/-- **A step is a move.** -/
theorem move_step (hd : d.Makes run) {stage : Stage} (hs : stage.LeadsTo run) (b : Backend) :
    d.Move run b stage (d.step stage b).1 (d.step stage b).2 := by
  cases stage with
  | checking =>
    cases hdue : b.due? .runExists with
    | some f =>
      rw [step, Backend.runExists, Backend.call_of_due hdue]
      exact .checkFails hdue
    | none =>
      rw [step, Backend.runExists, Backend.call_of_not_due hdue]
      -- Only a backend that can see refuses here; a blind one lets every commit pass.
      cases hseen : !b.blind && b.store.runExists d.key with
      | true =>
        simp only [Backend.counted_blind, Backend.counted_store, hseen]
        exact .refused hdue (Bool.and_eq_true_iff.1 hseen).2
      | false =>
        simp only [Backend.counted_blind, Backend.counted_store, hseen]
        exact .passes hdue
  | opening =>
    cases hdue : b.due? .start with
    | some f =>
      rw [step, Backend.start, Backend.call_of_due hdue]
      exact .startFails hdue
    | none =>
      rw [step, Backend.start, Backend.call_of_not_due hdue]
      exact .starts hdue
  | writing tx due =>
    cases due with
    | cons row rest =>
      cases hdue : b.due? row.method with
      | some f =>
        rw [step, Backend.insert, Backend.call_of_due hdue]
        exact .insertFails hdue
      | none =>
        -- The store itself has no objection, for the rows make up the run.
        obtain ⟨tx', htake, _⟩ := insert_of_leadsTo hs
        rw [step, Backend.insert, Backend.call_of_not_due hdue]
        simp only [htake]
        exact .inserts hdue htake
    | nil =>
      obtain rfl := eq_ofRun_of_leadsTo hs
      cases hdue : b.due? .commit with
      | some f =>
        rw [step, Backend.commit, Backend.call_of_due hdue]
        exact .commitFails hdue
      | none =>
        -- The store looks at the key in the staged header, which is the delivery's own.
        have hkey : run.header.key = d.key := congrArg RunHeader.key hd.header
        rw [step, Backend.commit, Backend.call_of_not_due hdue]
        cases hrun : b.store.runExists d.key with
        | true =>
          simp only [Store.commit, Transaction.toRun?_ofRun, Backend.counted_store, hkey, hrun,
            if_true]
          exact .overtaken hdue hrun
        | false =>
          simp only [Store.commit, Transaction.toRun?_ofRun, Backend.counted_store, hkey, hrun,
            Bool.false_eq_true, if_false]
          exact .commits hdue hrun
  | undoing cause =>
    obtain ⟨reason, rfl⟩ := hs
    rw [step, snd_rollback]
    exact .undoes
  | finished outcome => exact .rests

/-- Every move leads on to the run. -/
theorem Move.leadsTo (hd : d.Makes run) {b b' : Backend} {stage stage' : Stage}
    (hs : stage.LeadsTo run) (h : d.Move run b stage stage' b') : stage'.LeadsTo run := by
  cases h with
  | starts due => exact hd.staged
  | insertFails due => exact ⟨_, rfl⟩
  | inserts due taken =>
    obtain ⟨tx', htake, hnext⟩ := insert_of_leadsTo hs
    rw [taken] at htake
    rwa [Except.ok.inj htake]
  | _ => trivial

/-- No move changes what fails on schedule. -/
theorem Move.faults {b b' : Backend} {stage stage' : Stage} (h : d.Move run b stage stage' b') :
    b'.faults = b.faults := by
  cases h <;> rfl

/-! ### A whole commit -/

/-- What every move keeps holds at the end. -/
theorem run_invariant (hd : d.Makes run) {P : Stage → Backend → Prop}
    (hmove : ∀ {b b' : Backend} {stage stage' : Stage},
      P stage b → d.Move run b stage stage' b' → P stage' b')
    {stage : Stage} {b : Backend} (hs : stage.LeadsTo run) (h : P stage b) :
    P (.finished (d.run stage b).1) (d.run stage b).2 := by
  -- One step keeps both the property and the way to the run.
  have hstep : ∀ {stage : Stage} {b : Backend}, stage.LeadsTo run → P stage b →
      (d.step stage b).1.LeadsTo run ∧ P (d.step stage b).1 (d.step stage b).2 := by
    intro stage b hs h
    have hm := move_step hd hs b
    exact ⟨hm.leadsTo hd hs, hmove h hm⟩
  -- By induction on the calls that are left.
  fun_induction d.run stage b with
  | case1 b outcome => exact h
  | case2 b ih => exact ih (hstep hs h).1 (hstep hs h).2
  | case3 b ih => exact ih (hstep hs h).1 (hstep hs h).2
  | case4 b tx due ih => exact ih (hstep hs h).1 (hstep hs h).2
  | case5 b cause ih => exact ih (hstep hs h).1 (hstep hs h).2

end Delivery

/-- What is prepared makes up the run of the submitted lines. -/
theorem Submission.makes_of_prepare {s : Submission} {runId : RunId} {now : Int} {d : Delivery}
    (h : s.prepare runId now = .ok d) : d.Makes (.ofLines d.header s.lines) := by
  obtain ⟨period, totals, _, hl, _, rfl⟩ := prepare_eq_ok_iff.1 h
  exact ⟨insert_rowsOf _ _ hl.distinct, rfl⟩

end Payroll
