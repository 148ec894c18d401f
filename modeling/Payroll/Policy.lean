import Payroll.Coverage
import Payroll.Table

namespace Payroll

/-!
# Policy

What the administration decides once for all runs.

Main definitions:

* `ContextDefaults`: values of variables that no roster supplies.
* `EngineConfig`: those, salary multipliers by type of run, and the size of a large roster.
* `EngineConfig.multiplier`: the multiplier of a type of run.
-/

/-- Values of variables that are the same for all workers. -/
structure ContextDefaults where
  workedDays : Decimal := .ofNat 30
  overtimeHours : Decimal := .zero
  absenceDays : Decimal := .zero
  /-- Further constants by name. -/
  extra : Table String Decimal := .empty
  deriving DecidableEq

/-- The policy of the engine. -/
structure EngineConfig where
  /-- Salary multipliers that replace the built-in ones. -/
  multipliers : Table PayrollType Decimal := .empty
  defaults : ContextDefaults := {}
  /-- From this number of workers on a roster counts as large; results do not depend on it. -/
  parallelThreshold : UInt64 := 64
  deriving DecidableEq

/-- What the basic salary is multiplied with in a run. -/
def EngineConfig.multiplier (config : EngineConfig) (t : PayrollType) : Decimal :=
  (config.multipliers.get? t).getD t.defaultMultiplier

end Payroll
