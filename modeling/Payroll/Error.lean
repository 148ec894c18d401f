import Payroll.Coverage
import Payroll.Decimal.Text

namespace Payroll

/-!
# Errors

What can go wrong in a run, in the store and in the engine, as causes; the wording is given once
for each.

Main definitions:

* `StoreError`, `StoreError.message`: failures of the store and of other collaborators.
* `OutOfRange`, `LineDefect`: which amount is too large, and what is wrong with a line.
* `EngineError`, `EngineError.message`: failures of the engine.
* `EngineError.isValidation`: can the caller mend the request?
* `StoreError.whileCommitting`: what a failure of the store means to whom commits a run.
* `periodOf`: the period of a request.
-/

/-! ### The store -/

/-- Why the store refuses a call. -/
inductive StoreError where
  /-- There already is a run with this key. -/
  | alreadyCommitted (key : RunKey)
  /-- A row comes, or a transaction ends, before its header. -/
  | missingHeader
  /-- A transaction gets a second header. -/
  | repeatedHeader
  /-- A detail row belongs to another run than the header. -/
  | foreignDetail (workerId : String)
  /-- A worker gets a second detail row. -/
  | repeatedDetail (workerId : String)
  /-- An application row comes without a detail row of its worker. -/
  | strayApplication (workerId : String)
  /-- The call failed for a reason of its own. -/
  | fault (reason : String)
  deriving DecidableEq, Repr

/-- What happened, without saying that it was in the store. -/
def StoreError.detail : StoreError → String
  | alreadyCommitted key => s!"{key.period} {key.payrollType}"
  | missingHeader => "no run header in transaction"
  | repeatedHeader => "run header already staged in transaction"
  | foreignDetail workerId => s!"detail row for worker {workerId} references another run"
  | repeatedDetail workerId => s!"duplicate detail row for worker {workerId}"
  | strayApplication workerId => s!"application row for worker {workerId} has no detail row"
  | fault reason => reason

/-- What happened, in full. -/
def StoreError.message (e : StoreError) : String :=
  match e with
  | alreadyCommitted _ => s!"payroll run already committed: {e.detail}"
  | _ => s!"storage backend error: {e.detail}"

/-! ### The engine -/

/-- The amounts that can be too large for a decimal. -/
inductive OutOfRange where
  | salary (amount : Decimal) (workerId : String) (multiplier : Decimal)
  | totals (key : RunKey)
  deriving DecidableEq, Repr

/-- What can be wrong with a line that is to be committed. -/
inductive LineDefect where
  | blankWorker
  | repeatedWorker
  | unbalanced (netPay earnings deductions : Decimal)
  deriving DecidableEq, Repr

/-- Why the engine refuses a request. -/
inductive EngineError where
  /-- The text is no period. -/
  | invalidPeriod (text : String)
  /-- Nobody in the scope takes part. -/
  | noEligibleWorkers (scope : Scope)
  /-- No concept is in use. -/
  | noActiveConcepts
  /-- There is nothing to commit. -/
  | emptyDetail
  | invalidDetail (workerId : String) (defect : LineDefect)
  | amountOutOfRange (amount : OutOfRange)
  /-- There already is a committed run with this key. -/
  | commitConflict (key : RunKey)
  /-- The store failed. -/
  | persistence (detail : String)
  /-- The roster or the catalog could not be read. -/
  | collaborator (detail : String)
  /-- A configuration file is not there, or not readable as text. -/
  | configNotFound (file : String)
  /-- A configuration file does not hold what it should. -/
  | configParseError (file : String)
  deriving DecidableEq, Repr

/-- Which amount is too large, in words. -/
def OutOfRange.message : OutOfRange → String
  | salary amount workerId multiplier =>
    s!"basic salary {amount} of worker '{workerId}' scaled by {multiplier}"
  | totals key => s!"totals of the {key.period} {key.payrollType} run"

/-- What is wrong with a line, in words. -/
def LineDefect.message : LineDefect → String
  | blankWorker => "worker id is empty"
  | repeatedWorker => "worker appears more than once"
  | unbalanced netPay earnings deductions =>
    s!"net pay {netPay} does not equal earnings {earnings} minus deductions {deductions}"

/-- What went wrong, in words. -/
def EngineError.message : EngineError → String
  | invalidPeriod text => s!"Invalid period '{text}': expected YYYY-MM"
  | noEligibleWorkers scope => s!"No eligible workers for personnel scope '{scope}'"
  | noActiveConcepts => "No active concepts in the catalog"
  | emptyDetail => "Cannot commit a payroll run without detail lines"
  | invalidDetail workerId defect =>
    s!"Invalid detail line for worker '{workerId}': {defect.message}"
  | amountOutOfRange amount => s!"Amount out of range: {amount.message}"
  | commitConflict key =>
    s!"A {key.payrollType} payroll for period {key.period} has already been committed"
  | persistence _ => "Internal error while persisting the payroll run"
  | collaborator detail => s!"Collaborator query failed: {detail}"
  | configNotFound file => s!"Configuration file not found: {file}"
  | configParseError file => s!"Failed to parse configuration file '{file}'"

/-- Can the caller mend the request? -/
def EngineError.isValidation : EngineError → Bool
  | invalidPeriod _ | noEligibleWorkers _ | noActiveConcepts | emptyDetail | invalidDetail _ _
  | amountOutOfRange _ => true
  | commitConflict _ | persistence _ | collaborator _ | configNotFound _ | configParseError _ =>
    false

/-- What a failure of the store means to whom commits a run with the given key. -/
def StoreError.whileCommitting (key : RunKey) : StoreError → EngineError
  | alreadyCommitted _ => .commitConflict key
  | e => .persistence e.detail

/-- The period of a request. -/
def periodOf (text : String) : Except EngineError Period :=
  match Period.parse? text.toList with
  | some period => .ok period
  | none => .error (.invalidPeriod text)

end Payroll
