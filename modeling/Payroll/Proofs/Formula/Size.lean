import Payroll.Proofs.Formula.Grammar

namespace Payroll.Formula

/-!
# How large expressions are

The nodes of an expression are counted.  What a call stands for has those of its arguments, and at
most one more for each of them.  Evaluation goes no deeper than there are nodes, a node being
evaluated inside those above it.

* `Expr.nodes`, `Calls.nodes_le` — the number of nodes.
* `Expr.run_evalWithin` — as many calls inside each other suffice for evaluation as there are nodes.
-/

/-! ### Nodes -/

/-- The number of nodes. -/
def Expr.nodes : Expr → Nat
  | .number _ => 1
  | .neg e | .abs e | .round e => e.nodes + 1
  | .arith _ a b | .compare _ a b | .max a b | .min a b | .roundTo a b => a.nodes + b.nodes + 1
  | .cond test yes no => test.nodes + yes.nodes + no.nodes + 1

theorem Expr.nodes_pos (e : Expr) : 0 < e.nodes := by
  cases e <;> exact Nat.succ_pos _

/-- The nodes of several expressions, and one more for each of them. -/
def nodesOfAll : List Expr → Nat
  | [] => 0
  | e :: args => e.nodes + 1 + nodesOfAll args

theorem nodesOfAll_append (args args' : List Expr) :
    nodesOfAll (args ++ args') = nodesOfAll args + nodesOfAll args' := by
  induction args with
  | nil => exact (Nat.zero_add _).symm
  | cons e args ih =>
    rw [List.cons_append, nodesOfAll, nodesOfAll, ih]
    omega

/-- The greatest or least of many has a node for each step from one to the next. -/
theorem nodes_foldl {f : Expr → Expr → Expr} (hf : ∀ a b, (f a b).nodes = a.nodes + b.nodes + 1)
    (a : Expr) (rest : List Expr) : (rest.foldl f a).nodes = a.nodes + nodesOfAll rest := by
  induction rest generalizing a with
  | nil => rfl
  | cons b rest ih =>
    rw [List.foldl_cons, ih, hf, nodesOfAll]
    omega

theorem Calls.nodes_le {name : String} {args : List Expr} {e : Expr} (h : Calls name args e) :
    e.nodes ≤ nodesOfAll args := by
  cases h with
  | cond | abs | round | roundTo =>
    simp only [Expr.nodes, nodesOfAll]
    omega
  | max | min =>
    rw [nodes_foldl fun _ _ => rfl]
    simp only [Expr.nodes, nodesOfAll]
    omega

/-! ### Evaluation -/

/-- Steps in a row do not give up if none of them does. -/
theorem run_bind_eq_some {ε α β : Type} {x : ExceptT ε Option α} {f : α → ExceptT ε Option β}
    {y : Except ε α} {g : α → Except ε β} (hx : x.run = some y) (hf : ∀ a, (f a).run = some (g a)) :
    (x >>= f).run = some (y >>= g) := by
  rw [ExceptT.run_bind, hx]
  cases y with
  | ok a => exact hf a
  | error e => rfl

/-- **How deep evaluation goes**: not deeper than there are nodes. -/
theorem Expr.run_evalWithin {e : Expr} {depth : Nat} (h : e.nodes ≤ depth) :
    (e.evalWithin depth).run = some e.eval := by
  induction depth generalizing e with
  | zero => exact absurd h (Nat.not_le_of_lt e.nodes_pos)
  | succ depth ih =>
    -- Each part has fewer nodes than the whole, and so one level less is enough for it.
    cases e with
    | number value => rfl
    | neg e | abs e | round e =>
      exact run_bind_eq_some (ih (Nat.le_of_succ_le_succ h)) fun _ => rfl
    | arith op a b | compare op a b | max a b | min a b =>
      simp only [nodes] at h
      exact run_bind_eq_some (ih (by omega)) fun _ => run_bind_eq_some (ih (by omega)) fun _ => rfl
    | roundTo e places =>
      simp only [nodes] at h
      refine run_bind_eq_some (ih (by omega)) fun _ => run_bind_eq_some (ih (by omega)) fun p => ?_
      exact run_bind_eq_some rfl fun _ => rfl
    | cond test yes no =>
      simp only [nodes] at h
      refine run_bind_eq_some (ih (by omega)) fun t => ?_
      split
      · exact ih (by omega)
      · exact ih (by omega)

end Payroll.Formula
