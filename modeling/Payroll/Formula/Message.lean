import Payroll.Formula.Expr
import Payroll.Text

namespace Payroll.Formula

/-!
# Messages

The wording of the reasons for which a formula has no value.

Main definition: `FormulaError.message`.
-/

/-- What went wrong, in words. -/
def FormulaError.message : FormulaError → String
  | .empty => "formula is empty"
  | .tooLong length => s!"formula is {length} characters long, limit is {maxLength}"
  | .disallowedCharacter ch position =>
    s!"disallowed character {Text.quoteChar ch} at position {position}"
  | .invalidNumber literal => s!"invalid number literal '{literal}'"
  | .unknownVariable name => s!"unknown variable '{name}'"
  | .unknownFunction name => s!"unknown function '{name}'"
  | .wrongArity function found =>
    s!"{function.label} expects {function.arity} argument(s), got {found}"
  | .invalidPlaces =>
    s!"invalid argument to {Builtin.round.label}: " ++
      s!"places must be a whole number from 0 to {maxPlaces}"
  | .unexpectedToken found => s!"unexpected token '{found.describe}'"
  | .unexpectedEnd => "unexpected end of formula"
  | .nestingTooDeep => s!"formula nesting exceeds {maxNesting} levels"
  | .divisionByZero => "division by zero"
  | .overflow => "arithmetic overflow"

end Payroll.Formula
