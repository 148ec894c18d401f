import Payroll.Document.Runs
import Payroll.Store.Rows

namespace Payroll

/-!
# Rows in documents

Main definitions: `toDocument` and `ofDocument?` for detail rows and application rows, and
`RunHeader.entries`.
-/

open Document

/-- An identifier as text. -/
def RunId.ofDocument? (d : Document) : Option RunId :=
  d.toText?.bind fun s => RunId.parse? s.toList

/-- The entries of a header, without its identifier and its time. -/
def RunHeader.entries (row : RunHeader) : List (String × Document) :=
  [("period", .text row.key.period.toString),
   ("payroll_type", .text row.key.payrollType.label),
   ("scope", row.scope.toDocument),
   ("totals", row.totals.toDocument),
   ("engine_version", .text row.engineVersion)]

namespace DetailRow

/-- The fields of a detail row, in order. -/
def fieldNames : List String :=
  ["run_id", "line_index", "worker_id", "document_number", "full_name", "basic_salary",
   "total_earnings", "total_deductions", "total_contributions", "net_pay"]

/-- The entries of a detail row, without the identifier of the run. -/
def entries (row : DetailRow) : List (String × Document) :=
  [("line_index", .integer row.lineIndex),
   ("worker_id", .text row.workerId),
   ("document_number", .text row.documentNumber),
   ("full_name", .text row.fullName),
   ("basic_salary", .ofDecimal row.basicSalary),
   ("total_earnings", .ofDecimal row.totalEarnings),
   ("total_deductions", .ofDecimal row.totalDeductions),
   ("total_contributions", .ofDecimal row.totalContributions),
   ("net_pay", .ofDecimal row.netPay)]

/-- A detail row as a record. -/
def toDocument (row : DetailRow) : Document :=
  .record (("run_id", .text row.runId.toString) :: row.entries)

/-- Reads a detail row. -/
def ofDocument? (d : Document) : Option DetailRow := do
  let fields ← d.fields? fieldNames
  return { runId := ← required fields "run_id" RunId.ofDocument?
           lineIndex := ← required fields "line_index" toUnsigned?
           workerId := ← required fields "worker_id" toText?
           documentNumber := ← required fields "document_number" toText?
           fullName := ← required fields "full_name" toText?
           basicSalary := ← required fields "basic_salary" toDecimal?
           totalEarnings := ← required fields "total_earnings" toDecimal?
           totalDeductions := ← required fields "total_deductions" toDecimal?
           totalContributions := ← required fields "total_contributions" toDecimal?
           netPay := ← required fields "net_pay" toDecimal? }

end DetailRow

namespace ApplicationRow

/-- The fields of an application row, in order. -/
def fieldNames : List String := "run_id" :: "worker_id" :: Application.fieldNames

/-- The entries of an application row, without the identifier of the run. -/
def entries (row : ApplicationRow) : List (String × Document) :=
  ("worker_id", .text row.workerId) :: row.application.entries

/-- An application row as a record. -/
def toDocument (row : ApplicationRow) : Document :=
  .record (("run_id", .text row.runId.toString) :: row.entries)

/-- Reads an application row. -/
def ofDocument? (d : Document) : Option ApplicationRow := do
  let fields ← d.fields? fieldNames
  return { runId := ← required fields "run_id" RunId.ofDocument?
           workerId := ← required fields "worker_id" toText?
           application := ← Application.ofFields? fields }

end ApplicationRow

end Payroll
