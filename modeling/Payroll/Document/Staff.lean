import Payroll.Document
import Payroll.Worker

namespace Payroll

/-!
# Workers in documents

Main definitions: `Worker.toDocument` and `Worker.ofDocument?`.  The dependents are none and the
status is active if they are not given.
-/

open Document

/-- A date as text. -/
def Date.ofDocument? (d : Document) : Option Date := d.toText?.bind fun s => Date.parse? s.toList

/-- A label of a kind of contract. -/
def ContractType.ofDocument? : Document → Option ContractType := toLabel? all label

/-- A label of a status. -/
def Status.ofDocument? : Document → Option Status := toLabel? all label

namespace Worker

/-- The fields of a worker, in order. -/
def fieldNames : List String :=
  ["id", "document_number", "first_name", "last_name", "basic_salary", "hire_date",
   "contract_type", "personnel_group", "dependents", "status"]

/-- A worker as a record. -/
def toDocument (w : Worker) : Document :=
  .record
    [("id", .text w.id),
     ("document_number", .text w.documentNumber),
     ("first_name", .text w.firstName),
     ("last_name", .text w.lastName),
     ("basic_salary", .ofDecimal w.basicSalary),
     ("hire_date", .text w.hireDate.toString),
     ("contract_type", .text w.contractType.label),
     ("personnel_group", .text w.personnelGroup),
     ("dependents", .integer w.dependents.toNat),
     ("status", .text w.status.label)]

/-- Reads a worker. -/
def ofDocument? (d : Document) : Option Worker := do
  let fields ← d.fields? fieldNames
  return { id := ← required fields "id" toText?
           documentNumber := ← required fields "document_number" toText?
           firstName := ← required fields "first_name" toText?
           lastName := ← required fields "last_name" toText?
           basicSalary := ← required fields "basic_salary" toDecimal?
           hireDate := ← required fields "hire_date" Date.ofDocument?
           contractType := ← required fields "contract_type" ContractType.ofDocument?
           personnelGroup := ← required fields "personnel_group" toText?
           dependents := ← optional fields "dependents" 0 toUInt32?
           status := ← optional fields "status" .active Status.ofDocument? }

end Worker

end Payroll
