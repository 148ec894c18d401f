import Payroll.Decimal.Basic
import Payroll.Table

namespace Payroll

/-!
# Variables

The named values that rules and formulas can read.  Names are compared whole and exactly.

Main definitions:

* `Variables`: a table of values by name.
* `Variables.sameValues`: two tables of the same names, whose values agree as numbers.
-/

/-- Values by name. -/
abbrev Variables := Table String Decimal

namespace Variables

/-- The same names, with values that agree as numbers. -/
def sameValues (a b : Variables) : Bool :=
  a.size == b.size &&
    a.entries.all fun e => (b.get? e.1).any fun v => decide (e.2.SameValue v)

end Variables

end Payroll
