import Payroll.Line

namespace Payroll

/-!
# Payroll runs

Main definitions:

* `RunTotals`, `RunTotals.ofLines?`: the totals over all lines, if they are within bounds.
* `PayrollRun`: lines with their totals and what they cover.
* `eligible`: the workers that a run pays.
* `PayrollRun.preview`: a run that is computed and not kept.
-/

/-- Totals over the lines of a run, rounded. -/
structure RunTotals where
  workerCount : Nat
  totalEarnings : Decimal
  totalDeductions : Decimal
  totalContributions : Decimal
  netPay : Decimal
  deriving DecidableEq, Repr

/-- The sum of amounts, added from left to right. -/
def Decimal.sum? (amounts : List Decimal) : Option Decimal :=
  amounts.foldlM Decimal.add .zero

namespace RunTotals

/-- Nothing for nobody. -/
def zero : RunTotals := ⟨0, .zero, .zero, .zero, .zero⟩

/-- The totals of lines, or `none` if a sum is out of bounds on the way. -/
def ofLines? (lines : List Line) : Option RunTotals := do
  let earnings ← Decimal.sum? (lines.map Line.totalEarnings)
  let deductions ← Decimal.sum? (lines.map Line.totalDeductions)
  let contributions ← Decimal.sum? (lines.map Line.totalContributions)
  let netPay ← Decimal.sum? (lines.map Line.netPay)
  return { workerCount := lines.length
           totalEarnings := roundMoney earnings
           totalDeductions := roundMoney deductions
           totalContributions := roundMoney contributions
           netPay := roundMoney netPay }

end RunTotals

/-- The totals of a run that is to be valid. -/
def totalsOf (key : RunKey) (lines : List Line) : Except EngineError RunTotals :=
  match RunTotals.ofLines? lines with
  | some totals => .ok totals
  | none => .error (.amountOutOfRange (.totals key))

/-- Whether a run is kept. -/
inductive RunStatus where
  | preview | committed
  deriving DecidableEq, Repr

/-- The label of a status. -/
def RunStatus.label : RunStatus → String
  | .preview => "preview"
  | .committed => "committed"

/-- The version of the rules by which runs are computed. -/
def currentVersion : String := "0.1.0"

/-- A payroll run. -/
structure PayrollRun where
  key : RunKey
  scope : Scope
  status : RunStatus
  totals : RunTotals
  /-- One line for each worker, in the order of the roster. -/
  lines : List Line
  /-- The second at which it was computed. -/
  computedAt : Int
  engineVersion : String
  deriving DecidableEq, Repr

/-- The workers that a run pays: those who take part and are in its scope. -/
def eligible (scope : Scope) (workers : List Worker) : List Worker :=
  workers.filter fun w => w.isActive && scope.includes w.personnelGroup

/-- Computes a run without keeping it. -/
def PayrollRun.preview (config : EngineConfig) (key : RunKey) (scope : Scope)
    (workers : List Worker) (plan : ConceptPlan) (now : Int) : Except EngineError PayrollRun := do
  let staff := eligible scope workers
  if staff.isEmpty then throw (.noEligibleWorkers scope)
  if plan.isEmpty then throw .noActiveConcepts
  let lines ← staff.mapM (Line.compute config key plan)
  let totals ← totalsOf key lines
  return { key, scope, status := .preview, totals, lines, computedAt := now,
           engineVersion := currentVersion }

end Payroll
