import Payroll.Formula.Expr
import Payroll.Variables

namespace Payroll.Formula

/-!
# From tokens to expressions

The grammar, from the loosest to the tightest binding:

* a comparison of two sums, or one sum;
* a sum: products joined by `+` and `-`, grouped from the left;
* a product: operands joined by `*` and `/`, grouped from the left;
* an operand: signs in front of a primary;
* a primary: a number, a variable, a call, or a comparison in parentheses.

A reader takes an expression off the front of a list of tokens and answers with the rest, which is
shorter: that is part of its type, and why reading ends.  Every operand uses up one level of
nesting, so the operands inside it have one level less.

Main definitions:

* `Reader`: what takes something off the front of a list of tokens.
* `chain`, `comparison`, `list`, `primary`: readers built from the reader of their parts.
* `operand`: the reader of operands, by recursion on the levels that are left.
* `parse`: the expression that all tokens form.
-/

/-- Takes something off the front of a list of tokens and leaves a shorter one. -/
abbrev Reader (α : Type) : Type :=
  (ts : List Token) → Except FormulaError { r : α × List Token // r.2.length < ts.length }

/-- Operators of a sum. -/
def additive? : Token → Option ArithOp
  | .arith .add => some .add
  | .arith .sub => some .sub
  | _ => none

/-- Operators of a product. -/
def multiplicative? : Token → Option ArithOp
  | .arith .mul => some .mul
  | .arith .div => some .div
  | _ => none

/-- Goes on with a chain of operations behind its left part. -/
def chainRest (op? : Token → Option ArithOp) (item : Reader Expr) (left : Expr)
    (ts : List Token) : Except FormulaError { r : Expr × List Token // r.2.length ≤ ts.length } :=
  match ts with
  | [] => .ok ⟨(left, []), Nat.le_refl _⟩
  | t :: rest =>
    match op? t with
    | none => .ok ⟨(left, t :: rest), Nat.le_refl _⟩
    | some op => do
      let ⟨(right, rest'), h⟩ ← item rest
      let ⟨r, h'⟩ ← chainRest op? item (.arith op left right) rest'
      return ⟨r, by simp only [List.length_cons] at *; omega⟩
termination_by ts.length
decreasing_by simp only [List.length_cons] at *; omega

/-- Reads items joined by operators, grouped from the left. -/
def chain (op? : Token → Option ArithOp) (item : Reader Expr) : Reader Expr := fun ts => do
  let ⟨(left, rest), h⟩ ← item ts
  let ⟨r, h'⟩ ← chainRest op? item left rest
  return ⟨r, Nat.lt_of_le_of_lt h' h⟩

/-- Reads a sum of products of operands. -/
def sum (operand : Reader Expr) : Reader Expr := chain additive? (chain multiplicative? operand)

/-- Reads a sum, or two sums and a comparison between them. -/
def comparison (operand : Reader Expr) : Reader Expr := fun ts => do
  let ⟨(left, rest), h⟩ ← sum operand ts
  match rest, h with
  | .compare op :: rest', h =>
    let ⟨(right, rest''), h'⟩ ← sum operand rest'
    return ⟨(.compare op left right, rest''), by simp only [List.length_cons] at *; omega⟩
  | rest, h => return ⟨(left, rest), h⟩

/-- Reads items with commas between them. -/
def list (item : Reader Expr) (ts : List Token) :
    Except FormulaError { r : List Expr × List Token // r.2.length < ts.length } := do
  let ⟨(e, rest), h⟩ ← item ts
  match rest, h with
  | .comma :: rest', h =>
    let ⟨(es, rest''), h'⟩ ← list item rest'
    return ⟨(e :: es, rest''), by simp only [List.length_cons] at *; omega⟩
  | rest, h => return ⟨([e], rest), h⟩
termination_by ts.length
decreasing_by simp only [List.length_cons] at *; omega

/-- Reads the parenthesis that closes what has been read. -/
def close {α : Type} (a : α) : Reader α
  | .rightParen :: rest => .ok ⟨(a, rest), by simp⟩
  | t :: _ => .error (.unexpectedToken t)
  | [] => .error .unexpectedEnd

/-- Reads the arguments of a call and the parenthesis behind them. -/
def arguments (item : Reader Expr) : Reader (List Expr)
  | .rightParen :: rest => .ok ⟨([], rest), by simp⟩
  | ts => do
    let ⟨(args, rest), h⟩ ← list item ts
    let ⟨r, h'⟩ ← close args rest
    return ⟨r, Nat.lt_trans h' h⟩

/-- The call of a function by its name. -/
def call (name : String) (args : List Expr) : Except FormulaError Expr :=
  match Builtin.ofName? name with
  | none => .error (.unknownFunction name)
  | some f =>
    match f.apply? args with
    | some e => .ok e
    | none => .error (.wrongArity f args.length)

/-- The value of a variable. -/
def lookUp (vars : Variables) (name : String) : Except FormulaError Expr :=
  match vars.get? name with
  | some value => .ok (.number value)
  | none => .error (.unknownVariable name)

/-- Reads a number, a variable, a call, or an expression in parentheses. -/
def primary (vars : Variables) (expr : Reader Expr) : Reader Expr
  | [] => .error .unexpectedEnd
  | .number value :: rest => .ok ⟨(.number value, rest), by simp⟩
  | .leftParen :: rest => do
    let ⟨(e, rest'), h⟩ ← expr rest
    let ⟨r, h'⟩ ← close e rest'
    return ⟨r, by simp only [List.length_cons] at *; omega⟩
  | .name f :: .leftParen :: rest => do
    let ⟨(args, rest'), h⟩ ← arguments expr rest
    let e ← call f args
    return ⟨(e, rest'), by simp only [List.length_cons] at *; omega⟩
  | .name x :: rest => do
    let e ← lookUp vars x
    return ⟨(e, rest), by simp⟩
  | t :: _ => .error (.unexpectedToken t)

/-- Reads a primary with any signs in front of it, so many levels of nesting being left. -/
def operand (vars : Variables) : Nat → Reader Expr
  | 0 => fun _ => .error .nestingTooDeep
  | levels + 1 => fun ts =>
    match ts with
    | .arith .sub :: rest => do
      let ⟨(e, rest'), h⟩ ← operand vars levels rest
      return ⟨(.neg e, rest'), by simp only [List.length_cons] at *; omega⟩
    | .arith .add :: rest => do
      let ⟨r, h⟩ ← operand vars levels rest
      return ⟨r, by simp only [List.length_cons] at *; omega⟩
    | ts => primary vars (comparison (operand vars levels)) ts

/-- The expression that the tokens form, all of them. -/
def parse (vars : Variables) (ts : List Token) : Except FormulaError Expr := do
  let ⟨(e, rest), _⟩ ← comparison (operand vars maxNesting) ts
  match rest with
  | [] => return e
  | t :: _ => .error (.unexpectedToken t)

end Payroll.Formula
