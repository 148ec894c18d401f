import Payroll.Run
import Payroll.RunId

namespace Payroll

/-!
# Rows of a committed run

A committed run is kept as rows: one header, a detail row for every worker, and an application row
for every amount.  Rows are tied together by the identifier of the run and by the worker.

Main definitions:

* `RunHeader`, `DetailRow`, `ApplicationRow`: the rows.
* `CommittedRun`: the rows of one run.
* `CommittedRun.toPayrollRun`: the run that the rows describe.
-/

/-- The header row of a run. -/
structure RunHeader where
  runId : RunId
  key : RunKey
  scope : Scope
  totals : RunTotals
  /-- The second at which the run was committed. -/
  committedAt : Int
  engineVersion : String
  deriving DecidableEq, Repr

/-- The row of one worker. -/
structure DetailRow where
  runId : RunId
  /-- The place of the line in the run, from zero. -/
  lineIndex : Nat
  workerId : String
  documentNumber : String
  fullName : String
  basicSalary : Decimal
  totalEarnings : Decimal
  totalDeductions : Decimal
  totalContributions : Decimal
  netPay : Decimal
  deriving DecidableEq, Repr

/-- The row of one amount. -/
structure ApplicationRow where
  runId : RunId
  workerId : String
  application : Application
  deriving DecidableEq, Repr

/-- The detail row of a line. -/
def DetailRow.ofLine (runId : RunId) (lineIndex : Nat) (line : Line) : DetailRow where
  runId := runId
  lineIndex := lineIndex
  workerId := line.workerId
  documentNumber := line.documentNumber
  fullName := line.fullName
  basicSalary := line.basicSalary
  totalEarnings := line.totalEarnings
  totalDeductions := line.totalDeductions
  totalContributions := line.totalContributions
  netPay := line.netPay

/-- The line of a detail row, given its applications. -/
def DetailRow.toLine (row : DetailRow) (applications : List Application) : Line where
  workerId := row.workerId
  documentNumber := row.documentNumber
  fullName := row.fullName
  basicSalary := row.basicSalary
  totalEarnings := row.totalEarnings
  totalDeductions := row.totalDeductions
  totalContributions := row.totalContributions
  netPay := row.netPay
  applications := applications

/-- The rows of one run, each kind in the order in which it was written. -/
structure CommittedRun where
  header : RunHeader
  details : List DetailRow
  applications : List ApplicationRow
  deriving DecidableEq, Repr

namespace CommittedRun

/-- The applications of a worker. -/
def applicationsOf (run : CommittedRun) (workerId : String) : List Application :=
  (run.applications.filter fun row => row.workerId == workerId).map ApplicationRow.application

/-- The lines, by their places; those of one place stay in the order of writing. -/
def lines (run : CommittedRun) : List Line :=
  (run.details.mergeSort fun a b => decide (a.lineIndex ≤ b.lineIndex)).map fun row =>
    row.toLine (run.applicationsOf row.workerId)

/-- The run that the rows describe. -/
def toPayrollRun (run : CommittedRun) : PayrollRun where
  key := run.header.key
  scope := run.header.scope
  status := .committed
  totals := run.header.totals
  lines := run.lines
  computedAt := run.header.committedAt
  engineVersion := run.header.engineVersion

end CommittedRun

end Payroll
