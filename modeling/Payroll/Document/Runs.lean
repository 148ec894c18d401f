import Payroll.Document.Catalog
import Payroll.Document.Policy
import Payroll.Run

namespace Payroll

/-!
# Runs in documents

Main definitions: `toDocument` and `ofDocument?` for applications, lines and totals, and
`PayrollRun.toDocument`.
-/

open Document

namespace Application

/-- The fields of an application, in order. -/
def fieldNames : List String := ["concept_id", "code", "name", "concept_type", "amount"]

/-- The entries of an application. -/
def entries (a : Application) : List (String × Document) :=
  [("concept_id", .text a.conceptId),
   ("code", .text a.code),
   ("name", .text a.name),
   ("concept_type", .text a.conceptType.label),
   ("amount", .ofDecimal a.amount)]

/-- An application as a record. -/
def toDocument (a : Application) : Document := .record a.entries

/-- The application among fields. -/
def ofFields? (fields : Table String Document) : Option Application := do
  return { conceptId := ← required fields "concept_id" toText?
           code := ← required fields "code" toText?
           name := ← required fields "name" toText?
           conceptType := ← required fields "concept_type" ConceptType.ofDocument?
           amount := ← required fields "amount" toDecimal? }

/-- Reads an application. -/
def ofDocument? (d : Document) : Option Application := (d.fields? fieldNames).bind ofFields?

end Application

namespace Line

/-- The fields of a line, in order. -/
def fieldNames : List String :=
  ["worker_id", "document_number", "full_name", "basic_salary", "total_earnings",
   "total_deductions", "total_contributions", "net_pay", "applications"]

/-- A line as a record. -/
def toDocument (line : Line) : Document :=
  .record
    [("worker_id", .text line.workerId),
     ("document_number", .text line.documentNumber),
     ("full_name", .text line.fullName),
     ("basic_salary", .ofDecimal line.basicSalary),
     ("total_earnings", .ofDecimal line.totalEarnings),
     ("total_deductions", .ofDecimal line.totalDeductions),
     ("total_contributions", .ofDecimal line.totalContributions),
     ("net_pay", .ofDecimal line.netPay),
     ("applications", .list (line.applications.map Application.toDocument))]

/-- Reads a line. -/
def ofDocument? (d : Document) : Option Line := do
  let fields ← d.fields? fieldNames
  return { workerId := ← required fields "worker_id" toText?
           documentNumber := ← required fields "document_number" toText?
           fullName := ← required fields "full_name" toText?
           basicSalary := ← required fields "basic_salary" toDecimal?
           totalEarnings := ← required fields "total_earnings" toDecimal?
           totalDeductions := ← required fields "total_deductions" toDecimal?
           totalContributions := ← required fields "total_contributions" toDecimal?
           netPay := ← required fields "net_pay" toDecimal?
           applications := ← required fields "applications" fun d =>
             d.items?.bind (List.mapM Application.ofDocument?) }

end Line

namespace RunTotals

/-- The fields of totals, in order. -/
def fieldNames : List String :=
  ["worker_count", "total_earnings", "total_deductions", "total_contributions", "net_pay"]

/-- Totals as a record. -/
def toDocument (t : RunTotals) : Document :=
  .record
    [("worker_count", .integer t.workerCount),
     ("total_earnings", .ofDecimal t.totalEarnings),
     ("total_deductions", .ofDecimal t.totalDeductions),
     ("total_contributions", .ofDecimal t.totalContributions),
     ("net_pay", .ofDecimal t.netPay)]

/-- Reads totals. -/
def ofDocument? (d : Document) : Option RunTotals := do
  let fields ← d.fields? fieldNames
  return { workerCount := ← required fields "worker_count" toUnsigned?
           totalEarnings := ← required fields "total_earnings" toDecimal?
           totalDeductions := ← required fields "total_deductions" toDecimal?
           totalContributions := ← required fields "total_contributions" toDecimal?
           netPay := ← required fields "net_pay" toDecimal? }

end RunTotals

/-- The entries of a run, without the time of its computation. -/
def PayrollRun.entries (run : PayrollRun) : List (String × Document) :=
  [("period", .text run.key.period.toString),
   ("payroll_type", .text run.key.payrollType.label),
   ("scope", run.scope.toDocument),
   ("status", .text run.status.label),
   ("totals", run.totals.toDocument),
   ("lines", .list (run.lines.map Line.toDocument)),
   ("engine_version", .text run.engineVersion)]

/-- A run as a record, without the time of its computation. -/
def PayrollRun.toDocument (run : PayrollRun) : Document := .record run.entries

end Payroll
