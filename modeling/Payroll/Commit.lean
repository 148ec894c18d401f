import Payroll.Store.Backend

namespace Payroll

/-!
# Committing a run

Lines that are reviewed, and perhaps edited, are written as one run.  They are checked first; then
the store is asked whether the key is free, a transaction is opened, every row is inserted, and
the transaction is committed.  If an insertion fails the transaction is rolled back.

The calls on the store are the steps of a machine, so that those of several commits can also be
interleaved.

Main definitions:

* `checkLines`: the lines can make up a run.
* `rowsOf`: the rows of a run, in the order of writing.
* `Submission`, `Submission.prepare`: what is to be committed, and the rows it comes to.
* `Delivery`, `Stage`, `Delivery.step`, `Delivery.run`: writing the rows, call by call.
* `Backend.commitRun`: all of it.
* `Backend.commitAll`: several submissions, one after another.
-/

/-! ### Checks -/

/-- What is wrong with a line that comes behind `earlier` ones.  A worker must be named, and be
    named once; net pay must balance. -/
def Line.defect? (line : Line) (earlier : List Line) : Option LineDefect :=
  if line.workerId.toList.all Text.isBlank then some .blankWorker
  else if earlier.any fun l => l.workerId == line.workerId then some .repeatedWorker
  else if line.isBalanced then none
  else some (.unbalanced line.netPay line.totalEarnings line.totalDeductions)

/-- Checks lines that come behind `earlier` ones, which are listed backwards. -/
def checkLinesAfter (earlier : List Line) : List Line → Except EngineError Unit
  | [] => .ok ()
  | line :: rest =>
    match line.defect? earlier with
    | some defect => .error (.invalidDetail line.workerId defect)
    | none => checkLinesAfter (line :: earlier) rest

/-- Checks that the lines can make up a run; the first defect is the error. -/
def checkLines (lines : List Line) : Except EngineError Unit :=
  if lines.isEmpty then .error .emptyDetail else checkLinesAfter [] lines

/-! ### Rows -/

/-- The rows of a line: its detail row, and a row for every application that is not zero. -/
def Line.rows (runId : RunId) (index : Nat) (line : Line) : List Row :=
  .detail (.ofLine runId index line) ::
    (line.applications.filter fun a => !a.amount.isZero).map fun a =>
      .application ⟨runId, line.workerId, a⟩

/-- The rows of lines, of which the first one has the given place. -/
def rowsFrom (runId : RunId) (index : Nat) : List Line → List Row
  | [] => []
  | line :: rest => line.rows runId index ++ rowsFrom runId (index + 1) rest

/-- The rows of a run, in the order of writing. -/
def rowsOf (header : RunHeader) (lines : List Line) : List Row :=
  .header header :: rowsFrom header.runId 0 lines

/-! ### Submissions -/

/-- What is to be committed. -/
structure Submission where
  /-- The text of the period. -/
  period : String
  payrollType : PayrollType
  scope : Scope
  lines : List Line
  deriving DecidableEq, Repr

/-- The rows that are to be written. -/
structure Delivery where
  header : RunHeader
  rows : List Row
  deriving DecidableEq, Repr

/-- The rows of a submission; an error if period, lines or totals are not valid. -/
def Submission.prepare (s : Submission) (runId : RunId) (now : Int) :
    Except EngineError Delivery := do
  let period ← periodOf s.period
  checkLines s.lines
  let key : RunKey := ⟨period, s.payrollType⟩
  let totals ← totalsOf key s.lines
  let header : RunHeader :=
    { runId, key, scope := s.scope, totals, committedAt := now, engineVersion := currentVersion }
  return { header, rows := rowsOf header s.lines }

/-! ### Calls on the store -/

/-- How far the writing has come. -/
inductive Stage where
  /-- Nothing has been asked yet. -/
  | checking
  /-- The key seemed free. -/
  | opening
  /-- A transaction is open, and these rows are still due. -/
  | writing (tx : Transaction) (due : List Row)
  /-- An insertion has failed. -/
  | undoing (cause : StoreError)
  | finished (outcome : Except EngineError RunId)

namespace Delivery

/-- The key of the run. -/
def key (d : Delivery) : RunKey := d.header.key

/-- The end of a delivery that the store has refused. -/
def fail (d : Delivery) (e : StoreError) : Stage := .finished (.error (e.whileCommitting d.key))

/-- Makes the next call.  What the store says to a rollback does not matter. -/
def step (d : Delivery) (stage : Stage) (b : Backend) : Stage × Backend :=
  match stage with
  | .checking =>
    match b.runExists d.key with
    | (.error e, b) => (d.fail e, b)
    | (.ok true, b) => (.finished (.error (.commitConflict d.key)), b)
    | (.ok false, b) => (.opening, b)
  | .opening =>
    match b.start with
    | (.error e, b) => (d.fail e, b)
    | (.ok tx, b) => (.writing tx d.rows, b)
  | .writing tx (row :: due) =>
    match b.insert tx row with
    | (.error e, b) => (.undoing e, b)
    | (.ok tx, b) => (.writing tx due, b)
  | .writing tx [] =>
    match b.commit tx with
    | (.error e, b) => (d.fail e, b)
    | (.ok (), b) => (.finished (.ok d.header.runId), b)
  | .undoing cause => (d.fail cause, b.rollback.2)
  | .finished outcome => (.finished outcome, b)

/-- The number of calls that can still come. -/
def remaining (d : Delivery) : Stage → Nat
  | .checking => d.rows.length + 4
  | .opening => d.rows.length + 3
  | .writing _ due => due.length + 2
  | .undoing _ => 1
  | .finished _ => 0

/-- Every call brings the end nearer. -/
theorem remaining_step_lt (d : Delivery) (stage : Stage) (b : Backend)
    (h : 0 < d.remaining stage) : d.remaining (d.step stage b).1 < d.remaining stage := by
  match stage with
  | .checking =>
    simp only [step]
    split <;> simp [remaining, fail]
  | .opening =>
    simp only [step]
    split <;> simp [remaining, fail]
  | .writing tx (row :: due) =>
    simp only [step]
    split <;> simp [remaining]
  | .writing tx [] =>
    simp only [step]
    split <;> simp [remaining, fail]
  | .undoing cause => simp [step, remaining, fail]
  | .finished outcome => simp [remaining] at h

/-- Makes all calls that are left. -/
def run (d : Delivery) (stage : Stage) (b : Backend) : Except EngineError RunId × Backend :=
  match stage with
  | .finished outcome => (outcome, b)
  | .checking => d.run (d.step .checking b).1 (d.step .checking b).2
  | .opening => d.run (d.step .opening b).1 (d.step .opening b).2
  | .writing tx due => d.run (d.step (.writing tx due) b).1 (d.step (.writing tx due) b).2
  | .undoing cause => d.run (d.step (.undoing cause) b).1 (d.step (.undoing cause) b).2
termination_by d.remaining stage
decreasing_by all_goals exact d.remaining_step_lt _ b (by simp [remaining])

end Delivery

namespace Backend

/-- Commits a submission under a fresh identifier, which is answered. -/
def commitRun (b : Backend) (s : Submission) (runId : RunId) (now : Int) :
    Except EngineError RunId × Backend :=
  match s.prepare runId now with
  | .error e => (.error e, b)
  | .ok delivery => delivery.run .checking b

/-- What is to be committed, under which identifier, and when. -/
structure Attempt where
  submission : Submission
  runId : RunId
  now : Int

/-- Commits made one after another, with the outcome of each. -/
def commitAll (b : Backend) : List Attempt → List (Except EngineError RunId) × Backend
  | [] => ([], b)
  | a :: rest =>
    let first := b.commitRun a.submission a.runId a.now
    let others := first.2.commitAll rest
    (first.1 :: others.1, others.2)

end Backend

end Payroll
