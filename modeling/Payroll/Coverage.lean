import Payroll.Calendar.Period
import Payroll.Decimal.Basic

namespace Payroll

/-!
# What a payroll run covers

A run is of one type, for one period, over a part of the staff.  Type and period are its key: a
run is committed at most once for each.

Main definitions:

* `PayrollType`: the types of run, with their labels and built-in salary multipliers.
* `RunKey`: a period and a type; keys are ordered by period, then by type.
* `Scope`: all of the staff or one group of it.
-/

/-- The types of payroll run. -/
inductive PayrollType where
  | regular | bonus | gratification | severanceAccrual
  deriving DecidableEq, Repr

namespace PayrollType

/-- All types in their order. -/
def all : List PayrollType := [regular, bonus, gratification, severanceAccrual]

/-- The label of a type. -/
def label : PayrollType → String
  | regular => "regular"
  | bonus => "bonus"
  | gratification => "gratification"
  | severanceAccrual => "severance_accrual"

instance : ToString PayrollType := ⟨label⟩

/-- The place of a type in the order. -/
def rank : PayrollType → Nat
  | regular => 0
  | bonus => 1
  | gratification => 2
  | severanceAccrual => 3

/-- What the basic salary is multiplied with unless a policy says otherwise. -/
def defaultMultiplier : PayrollType → Decimal
  | severanceAccrual => ⟨false, 117, 2, by decide, by decide⟩
  | _ => .one

end PayrollType

/-- What a committed run is found by. -/
structure RunKey where
  period : Period
  payrollType : PayrollType
  deriving DecidableEq, Repr

/-- Does the first key come no later than the second? -/
def RunKey.le (a b : RunKey) : Bool :=
  decide (a.period < b.period) ||
    (a.period == b.period && decide (a.payrollType.rank ≤ b.payrollType.rank))

/-- The part of the staff that a run covers. -/
inductive Scope where
  | all
  | group (name : String)
  deriving DecidableEq, Repr

namespace Scope

/-- Does the scope cover the members of a group? -/
def includes : Scope → String → Bool
  | all, _ => true
  | group name, g => name == g

/-- The scope in a message. -/
protected def toString : Scope → String
  | all => "all"
  | group name => name

instance : ToString Scope := ⟨Scope.toString⟩

end Scope

end Payroll
