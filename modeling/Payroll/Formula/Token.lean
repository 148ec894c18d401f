import Payroll.Decimal.Text

namespace Payroll.Formula

/-!
# Tokens

The pieces that a formula is written in.

Main definitions:

* `ArithOp`, `CompareOp`: the operators, with their symbols.
* `Token`: numbers, names, operators and punctuation.
* `Token.describe`: how a token is written.
-/

/-- The four operations of arithmetic. -/
inductive ArithOp where
  | add | sub | mul | div
  deriving DecidableEq, Repr

/-- The six comparisons. -/
inductive CompareOp where
  | lt | le | gt | ge | eq | ne
  deriving DecidableEq, Repr

/-- A piece of a formula. -/
inductive Token where
  | number (value : Decimal)
  | name (text : String)
  | arith (op : ArithOp)
  | compare (op : CompareOp)
  | leftParen
  | rightParen
  | comma
  deriving DecidableEq, Repr

/-- The symbol of an operation. -/
def ArithOp.symbol : ArithOp → String
  | .add => "+"
  | .sub => "-"
  | .mul => "*"
  | .div => "/"

/-- The symbol of a comparison. -/
def CompareOp.symbol : CompareOp → String
  | .lt => "<"
  | .le => "<="
  | .gt => ">"
  | .ge => ">="
  | .eq => "=="
  | .ne => "!="

/-- How a token is written; a number in its own scale. -/
def Token.describe : Token → String
  | .number value => value.toString
  | .name text => text
  | .arith op => op.symbol
  | .compare op => op.symbol
  | .leftParen => "("
  | .rightParen => ")"
  | .comma => ","

end Payroll.Formula
