import Payroll.Calendar.Date
import Payroll.Decimal.Basic

namespace Payroll

/-!
# Workers

The staff as the roster describes it.

Main definitions:

* `ContractType`, `Status`: the kinds of contract, and whether a thing is in use.
* `Worker`: one member of the staff.
* `Worker.tenureMonths`, `Worker.tenureYears`: completed months and years of service.
-/

/-- The kinds of contract. -/
inductive ContractType where
  | indefinite | fixedTerm | partTime
  deriving DecidableEq, Repr

/-- All kinds of contract. -/
def ContractType.all : List ContractType := [.indefinite, .fixedTerm, .partTime]

/-- The label of a kind of contract. -/
def ContractType.label : ContractType → String
  | .indefinite => "indefinite"
  | .fixedTerm => "fixed_term"
  | .partTime => "part_time"

/-- Whether a worker or a concept takes part in payroll runs. -/
inductive Status where
  | active | inactive
  deriving DecidableEq, Repr

/-- Both of them. -/
def Status.all : List Status := [.active, .inactive]

/-- The label of a status. -/
def Status.label : Status → String
  | .active => "active"
  | .inactive => "inactive"

/-- A member of the staff. -/
structure Worker where
  id : String
  documentNumber : String
  firstName : String
  lastName : String
  /-- The monthly salary before it is scaled for a type of run. -/
  basicSalary : Decimal
  /-- The first day of service. -/
  hireDate : Date
  contractType : ContractType
  /-- The group by which runs are scoped. -/
  personnelGroup : String
  dependents : UInt32
  status : Status
  deriving DecidableEq, Repr

namespace Worker

/-- First name and last name. -/
def fullName (w : Worker) : String := s!"{w.firstName} {w.lastName}"

/-- Does the worker take part in payroll runs? -/
def isActive (w : Worker) : Bool := w.status == .active

/-- Whole months of service on a day, zero before the first one. -/
def tenureMonths (w : Worker) (asOf : Date) : Nat := w.hireDate.wholeMonthsUntil asOf

/-- Whole years of service on a day. -/
def tenureYears (w : Worker) (asOf : Date) : Nat := w.tenureMonths asOf / 12

end Worker

end Payroll
