import Payroll.Decimal.Arithmetic
import Payroll.Formula.Token

namespace Payroll.Formula

/-!
# Expressions

Formulas as trees, the functions they can call, and the reasons for which a formula has no value.

Main definitions:

* `Builtin`: the functions, with their names and numbers of arguments.
* `Expr`: a formula in which variables stand for their values.
* `FormulaError`: why a formula cannot be read or has no value.
* `Expr.eval`: the value of a formula.
* `Expr.evalWithin`: evaluation with so many calls inside each other at most.
-/

/-- The functions that a formula can call. -/
inductive Builtin where
  | cond | max | min | abs | round
  deriving DecidableEq, Repr

/-- The name of a function. -/
def Builtin.label : Builtin → String
  | .cond => "IF"
  | .max => "MAX"
  | .min => "MIN"
  | .abs => "ABS"
  | .round => "ROUND"

/-- How many arguments a function takes, in words. -/
def Builtin.arity : Builtin → String
  | .cond => "3"
  | .max => "at least 2"
  | .min => "at least 2"
  | .abs => "1"
  | .round => "1 or 2"

/-- The function of a name, in upper or lower case. -/
def Builtin.ofName? (name : String) : Option Builtin :=
  [Builtin.cond, .max, .min, .abs, .round].find? fun f =>
    f.label.toList == name.toList.map Char.toUpper

/-- A formula, its variables replaced by their values. -/
inductive Expr where
  | number (value : Decimal)
  | neg (e : Expr)
  | arith (op : ArithOp) (left right : Expr)
  | compare (op : CompareOp) (left right : Expr)
  | cond (test yes no : Expr)
  | max (left right : Expr)
  | min (left right : Expr)
  | abs (e : Expr)
  | round (e : Expr)
  | roundTo (e places : Expr)
  deriving DecidableEq, Repr

/-- A call as a tree, if the number of arguments suits the function.  The greatest of many is the
    greater of the first ones and the next. -/
def Builtin.apply? : Builtin → List Expr → Option Expr
  | .cond, [test, yes, no] => some (.cond test yes no)
  | .max, a :: b :: rest => some (rest.foldl .max (.max a b))
  | .min, a :: b :: rest => some (rest.foldl .min (.min a b))
  | .abs, [e] => some (.abs e)
  | .round, [e] => some (.round e)
  | .round, [e, places] => some (.roundTo e places)
  | _, _ => none

/-! ### Failures -/

/-- The greatest number of characters in a formula. -/
def maxLength : Nat := 1024

/-- The greatest number of nested operands. -/
def maxNesting : Nat := 64

/-- The greatest number of places to round to. -/
def maxPlaces : Nat := 10

/-- Why a formula cannot be read or has no value. -/
inductive FormulaError where
  /-- There is nothing but white space. -/
  | empty
  /-- There are too many characters. -/
  | tooLong (length : Nat)
  /-- A character that formulas are not written in, counted from zero. -/
  | disallowedCharacter (ch : Char) (position : Nat)
  /-- Digits and points that are no number, or one out of bounds. -/
  | invalidNumber (literal : String)
  /-- A name without a value. -/
  | unknownVariable (name : String)
  /-- A call to something that is no function. -/
  | unknownFunction (name : String)
  /-- A call with an unsuitable number of arguments. -/
  | wrongArity (function : Builtin) (found : Nat)
  /-- Rounding to something that is no number of places. -/
  | invalidPlaces
  /-- A token where it cannot stand. -/
  | unexpectedToken (found : Token)
  /-- The formula ends where an operand or a parenthesis is due. -/
  | unexpectedEnd
  /-- Operands are nested too deep. -/
  | nestingTooDeep
  | divisionByZero
  /-- A result out of bounds. -/
  | overflow
  deriving DecidableEq, Repr

/-! ### Values -/

/-- The value of a truth: one or zero. -/
def truth (b : Bool) : Decimal := if b then .one else .zero

/-- The result of an operation on two values. -/
def ArithOp.apply (op : ArithOp) (a b : Decimal) : Except FormulaError Decimal :=
  let result : Option Decimal → Except FormulaError Decimal
    | some d => .ok d
    | none => .error .overflow
  match op with
  | .add => result (a.add b)
  | .sub => result (a.sub b)
  | .mul => result (a.mul b)
  | .div => if b.isZero then .error .divisionByZero else result (a.div b)

/-- Does the comparison hold of two values? -/
def CompareOp.holds (op : CompareOp) (a b : Decimal) : Bool :=
  match op with
  | .lt => decide (a < b)
  | .le => decide (a ≤ b)
  | .gt => decide (b < a)
  | .ge => decide (b ≤ a)
  | .eq => decide (a.SameValue b)
  | .ne => !decide (a.SameValue b)

/-- The number of places that a value stands for: a whole one from zero to ten. -/
def places? (d : Decimal) : Except FormulaError Nat :=
  match d.toNat? with
  | some n => if n ≤ maxPlaces then .ok n else .error .invalidPlaces
  | none => .error .invalidPlaces

/-- The value of a formula.  Operands are evaluated from left to right, and of the two branches of
    a condition only the one that is taken. -/
def Expr.eval : Expr → Except FormulaError Decimal
  | .number value => .ok value
  | .neg e => do return (← e.eval).neg
  | .arith op left right => do
    let a ← left.eval
    let b ← right.eval
    op.apply a b
  | .compare op left right => do
    let a ← left.eval
    let b ← right.eval
    return truth (op.holds a b)
  | .cond test yes no => do
    let t ← test.eval
    if t.isZero then no.eval else yes.eval
  | .max left right => do
    let a ← left.eval
    let b ← right.eval
    return a.max b
  | .min left right => do
    let a ← left.eval
    let b ← right.eval
    return a.min b
  | .abs e => do return (← e.eval).abs
  | .round e => do return (← e.eval).roundTo 0
  | .roundTo e places => do
    let d ← e.eval
    let n ← places? (← places.eval)
    return d.roundTo n

/-- Evaluation that gives up where more calls than `depth` are inside each other. -/
def Expr.evalWithin : (depth : Nat) → Expr → ExceptT FormulaError Option Decimal
  | 0, _ => .mk none
  | _ + 1, .number value => return value
  | depth + 1, .neg e => do return (← e.evalWithin depth).neg
  | depth + 1, .arith op left right => do
    let a ← left.evalWithin depth
    let b ← right.evalWithin depth
    op.apply a b
  | depth + 1, .compare op left right => do
    let a ← left.evalWithin depth
    let b ← right.evalWithin depth
    return truth (op.holds a b)
  | depth + 1, .cond test yes no => do
    let t ← test.evalWithin depth
    if t.isZero then no.evalWithin depth else yes.evalWithin depth
  | depth + 1, .max left right => do
    let a ← left.evalWithin depth
    let b ← right.evalWithin depth
    return a.max b
  | depth + 1, .min left right => do
    let a ← left.evalWithin depth
    let b ← right.evalWithin depth
    return a.min b
  | depth + 1, .abs e => do return (← e.evalWithin depth).abs
  | depth + 1, .round e => do return (← e.evalWithin depth).roundTo 0
  | depth + 1, .roundTo e places => do
    let d ← e.evalWithin depth
    let n ← places? (← places.evalWithin depth)
    return d.roundTo n

end Payroll.Formula
