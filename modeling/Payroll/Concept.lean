import Payroll.Formula
import Payroll.Worker

namespace Payroll

/-!
# Concepts

A concept is a named item of pay, deduction or contribution, with the rule that gives its amount.

Main definitions:

* `ConceptType`: which of the three totals an item belongs to.
* `Rule`: a fixed amount, a percentage, a formula, or an entry by hand.
* `Concept`: an item of the catalog.
* `Concept.evaluate?`: the value of an item over the variables of a worker.
* `Concept.amount`: what the item counts for, which is never a failure and never negative.
-/

/-- The total that an item belongs to. -/
inductive ConceptType where
  | earning | deduction | employerContribution
  deriving DecidableEq, Repr

/-- All types. -/
def ConceptType.all : List ConceptType := [.earning, .deduction, .employerContribution]

/-- The label of a type. -/
def ConceptType.label : ConceptType → String
  | .earning => "earning"
  | .deduction => "deduction"
  | .employerContribution => "employer_contribution"

/-- How the value of an item is found. -/
inductive Rule where
  /-- An amount; unset, it is zero. -/
  | fixed (value : Option Decimal)
  /-- A rate in percent; unset, it is zero. -/
  | percentage (rate : Option Decimal)
  /-- The text of a formula. -/
  | formula (expression : String)
  /-- Entered by hand elsewhere. -/
  | manual
  deriving DecidableEq, Repr

/-- An item of the catalog. -/
structure Concept where
  id : String
  code : String
  name : String
  conceptType : ConceptType
  rule : Rule
  /-- The place in the sequence of evaluation within the type. -/
  order : Int32
  status : Status
  deriving DecidableEq, Repr

/-! ### Names of variables -/

/-- The salary, scaled for the type of run. -/
def Variables.basicSalary : String := "BASIC_SALARY"

/-- The sum of all earnings, known only once they are settled. -/
def Variables.totalEarnings : String := "TOTAL_EARNINGS"

namespace Rule

/-- What a percentage is taken of: the total of earnings if it is known and positive, and the
    basic salary otherwise. -/
def percentageBase (vars : Variables) : Decimal :=
  match vars.get? Variables.totalEarnings with
  | some total =>
    if Decimal.zero < total then total
    else (vars.get? Variables.basicSalary).getD .zero
  | none => (vars.get? Variables.basicSalary).getD .zero

/-- So many percent of an amount. -/
def percentOf (rate base : Decimal) : Option Decimal := do
  let product ← base.mul rate
  product.div .hundred

/-- The value that a rule gives, neither clamped nor rounded. -/
def evaluate? (rule : Rule) (vars : Variables) : Except Formula.FormulaError Decimal :=
  match rule with
  | fixed value => .ok (value.getD .zero)
  | percentage rate =>
    match percentOf (rate.getD .zero) (percentageBase vars) with
    | some d => .ok d
    | none => .error .overflow
  | formula expression => Formula.evaluate? expression vars
  | manual => .ok .zero

end Rule

namespace Concept

/-- Is the item in use? -/
def isActive (c : Concept) : Bool := c.status == .active

/-- The value of an item, neither clamped nor rounded. -/
def evaluate? (c : Concept) (vars : Variables) : Except Formula.FormulaError Decimal :=
  c.rule.evaluate? vars

/-- What an item counts for: zero if it has no value or a negative sign. -/
def amount (c : Concept) (vars : Variables) : Decimal :=
  match c.evaluate? vars with
  | .ok d => if d.negative then .zero else d
  | .error _ => .zero

end Concept

end Payroll
