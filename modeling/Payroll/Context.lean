import Payroll.Calendar.Period
import Payroll.Concept
import Payroll.Policy

namespace Payroll

/-!
# The variables of a worker

Main definitions:

* `Variables.builtins`: the variables that every worker has.
* `Variables.forWorker`: what is known before the earnings are settled.
* `Variables.withTotalEarnings`: what is known afterwards.
-/

namespace Variables

/-- One or zero. -/
def flag (on : Bool) : Decimal := if on then .one else .zero

/-- The variables that every worker has, whatever constants are configured. -/
def builtins (worker : Worker) (salary : Decimal) (period : Period)
    (defaults : ContextDefaults) : List (String × Decimal) :=
  [(basicSalary, salary),
   ("ORIGINAL_BASIC_SALARY", worker.basicSalary),
   ("WORKED_DAYS", defaults.workedDays),
   ("OVERTIME_HOURS", defaults.overtimeHours),
   ("ABSENCE_DAYS", defaults.absenceDays),
   ("DAYS_IN_PERIOD", .ofNat period.days),
   ("TENURE_YEARS", .ofNat (worker.tenureYears period.lastDay)),
   ("TENURE_MONTHS", .ofNat (worker.tenureMonths period.lastDay)),
   ("DEPENDENTS", .ofNat worker.dependents.toNat),
   ("CONTRACT_INDEFINITE", flag (worker.contractType == .indefinite)),
   ("CONTRACT_FIXED_TERM", flag (worker.contractType == .fixedTerm)),
   ("CONTRACT_PART_TIME", flag (worker.contractType == .partTime))]

/-- The variables for the earnings of a worker: the configured constants, overridden by the
    worker's own, and no total of earnings. -/
def forWorker (worker : Worker) (salary : Decimal) (period : Period)
    (defaults : ContextDefaults) : Variables :=
  ((builtins worker salary period defaults).foldl (fun t e => t.set e.1 e.2)
    defaults.extra).erase totalEarnings

/-- The variables once the earnings are settled. -/
def withTotalEarnings (vars : Variables) (total : Decimal) : Variables :=
  vars.set totalEarnings total

end Variables

end Payroll
