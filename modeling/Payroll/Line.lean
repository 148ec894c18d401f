import Payroll.Context
import Payroll.Error
import Payroll.Plan

namespace Payroll

/-!
# The pay of one worker

A line is computed in three phases: earnings; deductions, which can read the total of earnings;
and employer contributions, which can read it too.  Every amount is rounded where it arises, and
only amounts other than zero are recorded.

Main definitions:

* `Application`, `Line`: the amount of one concept, and the pay of one worker.
* `Line.isBalanced`: net pay is earnings less deductions.
* `Phase.ofConcepts`: the recorded amounts and the total of one phase.
* `Line.compute`: the pay of a worker.
-/

/-- The amount of one concept for one worker. -/
structure Application where
  conceptId : String
  code : String
  name : String
  conceptType : ConceptType
  amount : Decimal
  deriving DecidableEq, Repr

/-- The pay of one worker. -/
structure Line where
  workerId : String
  documentNumber : String
  fullName : String
  /-- The salary after scaling. -/
  basicSalary : Decimal
  totalEarnings : Decimal
  totalDeductions : Decimal
  totalContributions : Decimal
  netPay : Decimal
  /-- Earnings, then deductions, then contributions. -/
  applications : List Application
  deriving DecidableEq, Repr

/-- Is net pay the difference of earnings and deductions?  A difference out of bounds is none. -/
def Line.isBalanced (line : Line) : Bool :=
  (line.totalEarnings.sub line.totalDeductions).any fun d => decide (d.SameValue line.netPay)

/-- The record of a concept's amount. -/
def Concept.application (c : Concept) (amount : Decimal) : Application where
  conceptId := c.id
  code := c.code
  name := c.name
  conceptType := c.conceptType
  amount := amount

/-! ### Phases -/

/-- What one phase adds to a line. -/
structure Phase where
  applications : List Application
  total : Decimal
  deriving DecidableEq, Repr

namespace Phase

/-- Goes through concepts behind those that make up `total`, which is not rounded here.  An amount
    of zero is not recorded, and neither is one that would bring the total out of bounds. -/
def record (vars : Variables) (total : Decimal) : List Concept → Phase
  | [] => ⟨[], total⟩
  | c :: cs =>
    let amount := roundMoney (c.amount vars)
    if amount.isZero then record vars total cs
    else
      match total.add amount with
      | none => record vars total cs
      | some sum =>
        let rest := record vars sum cs
        ⟨c.application amount :: rest.applications, rest.total⟩

/-- The phase of the given concepts. -/
def ofConcepts (vars : Variables) (concepts : List Concept) : Phase :=
  let phase := record vars .zero concepts
  ⟨phase.applications, roundMoney phase.total⟩

end Phase

/-! ### Lines -/

/-- The salary of a worker, scaled for a type of run. -/
def EngineConfig.scaledSalary (config : EngineConfig) (worker : Worker) (t : PayrollType) :
    Except EngineError Decimal :=
  match worker.basicSalary.mul (config.multiplier t) with
  | some salary => .ok (roundMoney salary)
  | none =>
    .error (.amountOutOfRange (.salary worker.basicSalary worker.id (config.multiplier t)))

/-- The line of a worker whose scaled salary is known.  Neither total is negative, so that their
    difference exists. -/
def Line.settle (config : EngineConfig) (period : Period) (plan : ConceptPlan) (worker : Worker)
    (salary : Decimal) : Line :=
  let vars := Variables.forWorker worker salary period config.defaults
  let earnings := Phase.ofConcepts vars plan.earnings
  let settled := vars.withTotalEarnings earnings.total
  let deductions := Phase.ofConcepts settled plan.deductions
  let contributions := Phase.ofConcepts settled plan.contributions
  { workerId := worker.id
    documentNumber := worker.documentNumber
    fullName := worker.fullName
    basicSalary := salary
    totalEarnings := earnings.total
    totalDeductions := deductions.total
    totalContributions := contributions.total
    netPay := roundMoney ((earnings.total.sub deductions.total).getD .zero)
    applications :=
      earnings.applications ++ deductions.applications ++ contributions.applications }

/-- The pay of a worker in a run of the given key; an error if the scaled salary is out of
    bounds. -/
def Line.compute (config : EngineConfig) (key : RunKey) (plan : ConceptPlan) (worker : Worker) :
    Except EngineError Line := do
  let salary ← config.scaledSalary worker key.payrollType
  return settle config key.period plan worker salary

end Payroll
