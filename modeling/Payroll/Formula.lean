import Payroll.Formula.Message
import Payroll.Formula.Parser
import Payroll.Formula.Tokens

namespace Payroll.Formula

/-!
# Formulas

A formula is a text of at most 1024 characters over numbers, variables, arithmetic, comparisons
and a few functions.

Main definitions:

* `evaluate?`: the value of a formula, or the reason why it has none.
* `amount`: what a formula pays, which is never a failure and never negative.
-/

/-- The value of a formula: neither clamped nor rounded. -/
def evaluate? (text : String) (vars : Variables) : Except FormulaError Decimal := do
  if text.length > maxLength then throw (.tooLong text.length)
  let ts ← tokens text
  if ts.isEmpty then throw .empty
  let e ← parse vars ts
  e.eval

/-- The value of a formula, or zero if it has none or a negative sign. -/
def amount (text : String) (vars : Variables) : Decimal :=
  match evaluate? text vars with
  | .ok d => if d.negative then .zero else d
  | .error _ => .zero

end Payroll.Formula
