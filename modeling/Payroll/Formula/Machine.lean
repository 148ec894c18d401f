import Payroll.Formula.Parser

namespace Payroll.Formula.Machine

/-!
# Reading with a cursor

Formulas can also be read by routines that share a cursor.  It goes through the tokens, and counts
on the way how many operands have been entered and not been left.  Nothing in such routines keeps
them from going round for ever, from losing count, or from leaving what they have not entered, so
that these are outcomes here like any other.

Main definitions:

* `Cursor`, `Stop`, `Step`: what is shared, the ways to stop, and steps from one cursor to another.
* `peek`, `advance`, `expect`, `enter`, `leave`: the smallest steps.
* `Routine`, `Work`, `Work.carryOut`: the routines and the loops in them, with what they call.
* `run`, `runFormula`: work with calls that are nested so deep at most.
* `outcome`: what a step comes to from a cursor on.
-/

/-! ### Steps -/

/-- Where reading has come to. -/
structure Cursor where
  /-- How many tokens have been passed. -/
  pos : Nat
  /-- How many operands have been entered and not been left. -/
  depth : Nat
  /-- The greatest depth there has been. -/
  peak : Nat
  deriving DecidableEq, Repr

namespace Cursor

/-- In front of the first token. -/
def start : Cursor := ⟨0, 0, 0⟩

/-- Behind the next token. -/
def next (c : Cursor) : Cursor := { c with pos := c.pos + 1 }

/-- Inside an operand. -/
def entered (c : Cursor) : Cursor :=
  { c with depth := c.depth + 1, peak := max c.peak (c.depth + 1) }

/-- Outside an operand. -/
def left (c : Cursor) : Cursor := { c with depth := c.depth - 1 }

end Cursor

/-- Why a step does not come out. -/
inductive Stop where
  /-- The tokens are no formula. -/
  | refused (e : FormulaError)
  /-- There is no operand to leave. -/
  | underflow
  /-- Calls are nested too deep. -/
  | exhausted
  deriving DecidableEq, Repr

/-- Steps move the cursor, and come out with a result or stop. -/
abbrev Step : Type → Type := ExceptT Stop (StateM Cursor)

section

variable (ts : List Token)

/-- The next token, which is not passed. -/
def peek : Step (Option Token) := do return ts[(← get).pos]?

/-- The next token, which is passed if there is one. -/
def advance : Step (Option Token) := do
  let t ← peek ts
  if t.isSome then modify Cursor.next
  return t

/-- Passes a token that is due. -/
def expect (t : Token) : Step Unit := do
  match ← advance ts with
  | some t' => if t' = t then return () else throw (.refused (.unexpectedToken t'))
  | none => throw (.refused .unexpectedEnd)

end

/-- Enters an operand, unless that is too deep. -/
def enter : Step Unit := do
  modify Cursor.entered
  if maxNesting < (← get).depth then throw (.refused .nestingTooDeep)

/-- Leaves an operand. -/
def leave : Step Unit := do
  if (← get).depth = 0 then throw .underflow else modify Cursor.left

/-- What needs no cursor. -/
def settle {α : Type} (x : Except FormulaError α) : Step α := ofExcept (x.mapError .refused)

/-- What a step comes to, and where. -/
def outcome {α : Type} (x : Step α) (c : Cursor) : Except Stop α × Cursor := (x.run.run c).run

/-! ### Routines -/

/-- Chains of operations that are grouped from the left. -/
inductive Level where
  | sum | product
  deriving DecidableEq, Repr

/-- The operators of a chain. -/
def Level.op? : Level → Token → Option ArithOp
  | .sum => additive?
  | .product => multiplicative?

/-- The routines, one for each kind of phrase. -/
inductive Routine where
  | comparison
  | chain (level : Level)
  | operand
  | primary
  /-- A call, behind the parenthesis that opens it. -/
  | call (name : String)
  deriving DecidableEq, Repr

/-- The routine for the parts of a chain. -/
def Level.part : Level → Routine
  | .sum => .chain .product
  | .product => .operand

/-- What there is to do: a routine, or the next round of the loop in one. -/
inductive Work where
  | routine (r : Routine)
  /-- Operators and parts behind the left part of a chain. -/
  | moreParts (level : Level) (left : Expr)
  /-- Arguments behind others of a call. -/
  | moreArguments (name : String) (args : List Expr)
  deriving DecidableEq, Repr

section

variable (ts : List Token) (vars : Variables)

/-- The end of a call. -/
def finishCall (name : String) (args : List Expr) : Step Expr := do
  expect ts .rightParen
  settle (call name args)

variable (go : Work → Step Expr)

/-- An operand behind the token that tells whether it has a sign. -/
def signed : Step Expr := do
  match ← peek ts with
  | some (.arith .sub) => do
    let _ ← advance ts
    let e ← go (.routine .operand)
    pure (.neg e)
  | some (.arith .add) => do
    let _ ← advance ts
    go (.routine .operand)
  | _ => go (.routine .primary)

/-- Carries out some work, `go` being what it calls. -/
def Work.carryOut : Work → Step Expr
  | .routine .comparison => do
    let left ← go (.routine (.chain .sum))
    match ← peek ts with
    | some (.compare op) => do
      let _ ← advance ts
      let right ← go (.routine (.chain .sum))
      pure (.compare op left right)
    | _ => pure left
  | .routine (.chain level) => do
    let left ← go (.routine level.part)
    go (.moreParts level left)
  | .moreParts level left => do
    match (← peek ts).bind level.op? with
    | some op => do
      let _ ← advance ts
      let right ← go (.routine level.part)
      go (.moreParts level (.arith op left right))
    | none => pure left
  | .routine .operand => do
    enter
    let e ← signed ts go
    leave
    pure e
  | .routine .primary => do
    match ← advance ts with
    | some (.number value) => pure (.number value)
    | some .leftParen => do
      let e ← go (.routine .comparison)
      expect ts .rightParen
      pure e
    | some (.name x) => do
      if (← peek ts) = some .leftParen then do
        let _ ← advance ts
        go (.routine (.call x))
      else settle (lookUp vars x)
    | some t => throw (.refused (.unexpectedToken t))
    | none => throw (.refused .unexpectedEnd)
  | .routine (.call name) => do
    if (← peek ts) = some .rightParen then finishCall ts name []
    else go (.moreArguments name [])
  | .moreArguments name args => do
    let e ← go (.routine .comparison)
    if (← peek ts) = some .comma then do
      let _ ← advance ts
      go (.moreArguments name (args ++ [e]))
    else finishCall ts name (args ++ [e])

end

section

variable (ts : List Token) (vars : Variables)

/-- Carries out some work with calls that are nested less than `fuel` deep. -/
def run : Nat → Work → Step Expr
  | 0, _ => throw .exhausted
  | fuel + 1, work => work.carryOut ts vars (run fuel)

/-- Reads a formula, which takes all tokens. -/
def runFormula (fuel : Nat) : Step Expr := do
  let e ← run ts vars fuel (.routine .comparison)
  match ← peek ts with
  | none => pure e
  | some t => throw (.refused (.unexpectedToken t))

end

end Payroll.Formula.Machine
