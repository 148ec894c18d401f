import Payroll.Formula.Expr
import Payroll.Proofs.Decimal.Cents
import Payroll.Proofs.Decimal.Quotient
import Payroll.Proofs.Except

namespace Payroll.Formula

/-!
# Values of formulas

A formula is evaluated over decimals, of which many stand for one number.  Here it is evaluated over
the numbers themselves: every operation gives its exact result, rounded once where a decimal has no
room for more digits.  The two ways agree, so that the value of a formula does not depend on how the
numbers in it are written, with two exceptions:

* a quotient that ties up (`Decimal.TiesUp`);
* rounding to a number of places that is a zero with a sign, which no number of places can be.

Main definitions and statements:

* `Expr.evalValue` — the value of a formula over rational numbers.
* `Expr.Steady` — neither exception is met while the formula is evaluated.
* `Expr.map_value_eval` — **a steady formula has the same value over decimals and over numbers**.
-/

open Decimal

/-! ### Operations on numbers -/

/-- A number rounded to what a decimal has room for. -/
def rounded (q : ℚ) : Except FormulaError ℚ :=
  match nearest? q with
  | some q' => .ok q'
  | none => .error .overflow

/-- An operation on numbers. -/
def ArithOp.applyValue (op : ArithOp) (p q : ℚ) : Except FormulaError ℚ :=
  match op with
  | .add => rounded (p + q)
  | .sub => rounded (p - q)
  | .mul => rounded (p * q)
  | .div => if q = 0 then .error .divisionByZero else rounded (p / q)

/-- Does the comparison hold of two numbers? -/
def CompareOp.holdsValue (op : CompareOp) (p q : ℚ) : Bool :=
  match op with
  | .lt => decide (p < q)
  | .le => decide (p ≤ q)
  | .gt => decide (q < p)
  | .ge => decide (q ≤ p)
  | .eq => decide (p = q)
  | .ne => !decide (p = q)

/-- The number of places that a number stands for. -/
def placesValue (q : ℚ) : Except FormulaError Nat :=
  if q = q.num.toNat ∧ q.num.toNat ≤ maxPlaces then .ok q.num.toNat else .error .invalidPlaces

/-- The value of a formula, over the numbers that its decimals stand for. -/
def Expr.evalValue : Expr → Except FormulaError ℚ
  | .number d => .ok d.value
  | .neg e => do return -(← e.evalValue)
  | .arith op left right => do
    let p ← left.evalValue
    let q ← right.evalValue
    op.applyValue p q
  | .compare op left right => do
    let p ← left.evalValue
    let q ← right.evalValue
    return if op.holdsValue p q then 1 else 0
  | .cond test yes no => do
    let q ← test.evalValue
    if q = 0 then no.evalValue else yes.evalValue
  | .max left right => do
    let p ← left.evalValue
    let q ← right.evalValue
    return Max.max p q
  | .min left right => do
    let p ← left.evalValue
    let q ← right.evalValue
    return Min.min p q
  | .abs e => do return |← e.evalValue|
  | .round e => do return nearestWhole (← e.evalValue)
  | .roundTo e places => do
    let q ← e.evalValue
    let n ← placesValue (← places.evalValue)
    return nearestWhole (q * pow10 n) / pow10 n

/-! ### Steady formulas -/

/-- While the formula is evaluated, no quotient ties up, and nothing is rounded to a number of
    places that is a zero with a sign.  What is not evaluated does not count. -/
def Expr.Steady : Expr → Prop
  | .number _ => True
  | .neg e => e.Steady
  | .arith op left right =>
    left.Steady ∧ ∀ a, left.eval = .ok a → right.Steady ∧
      ∀ b, right.eval = .ok b → ¬ (op = .div ∧ a.TiesUp b)
  | .compare _ left right => left.Steady ∧ ∀ a, left.eval = .ok a → right.Steady
  | .cond test yes no =>
    test.Steady ∧ ∀ t, test.eval = .ok t → if t.isZero then no.Steady else yes.Steady
  | .max left right => left.Steady ∧ ∀ a, left.eval = .ok a → right.Steady
  | .min left right => left.Steady ∧ ∀ a, left.eval = .ok a → right.Steady
  | .abs e => e.Steady
  | .round e => e.Steady
  | .roundTo e places =>
    e.Steady ∧ ∀ d, e.eval = .ok d → places.Steady ∧
      ∀ n, places.eval = .ok n → n.HasPlainZero

instance (d : Decimal) : Decidable d.HasPlainZero := inferInstanceAs (Decidable (_ → _))

/-- Steadiness is decided as the formula is evaluated. -/
instance Expr.decidableSteady : (e : Expr) → Decidable e.Steady
  | .number _ => isTrue trivial
  | .neg e => e.decidableSteady
  | .arith op left right =>
    letI := left.decidableSteady
    letI := right.decidableSteady
    inferInstanceAs (Decidable (left.Steady ∧ ∀ a, left.eval = .ok a → right.Steady ∧
      ∀ b, right.eval = .ok b → ¬ (op = .div ∧ a.TiesUp b)))
  | .compare _ left right | .max left right | .min left right =>
    letI := left.decidableSteady
    letI := right.decidableSteady
    inferInstanceAs (Decidable (left.Steady ∧ ∀ a, left.eval = .ok a → right.Steady))
  | .cond test yes no =>
    letI := test.decidableSteady
    letI := yes.decidableSteady
    letI := no.decidableSteady
    inferInstanceAs (Decidable (test.Steady ∧
      ∀ t, test.eval = .ok t → if t.isZero then no.Steady else yes.Steady))
  | .abs e => e.decidableSteady
  | .round e => e.decidableSteady
  | .roundTo e places =>
    letI := e.decidableSteady
    letI := places.decidableSteady
    inferInstanceAs (Decidable (e.Steady ∧ ∀ d, e.eval = .ok d → places.Steady ∧
      ∀ n, places.eval = .ok n → n.HasPlainZero))

/-! ### Operations on decimals and on numbers -/

/-- **An operation** on decimals is that on the numbers, unless it ties up. -/
theorem ArithOp.map_value_apply {op : ArithOp} {a b : Decimal} (h : ¬ (op = .div ∧ a.TiesUp b)) :
    (op.apply a b).map value = op.applyValue a.value b.value := by
  -- With or without a result, the two sides are the same match on it.
  cases op with
  | add =>
    rw [applyValue, rounded, ← map_value_add]
    unfold apply
    cases a.add b <;> rfl
  | sub =>
    rw [applyValue, rounded, ← map_value_sub]
    unfold apply
    cases a.sub b <;> rfl
  | mul =>
    rw [applyValue, rounded, ← map_value_mul]
    unfold apply
    cases a.mul b <;> rfl
  | div =>
    have htie : ¬ a.TiesUp b := fun htie => h ⟨rfl, htie⟩
    unfold apply applyValue
    simp only [← isZero_iff_value_eq]
    cases hb : b.isZero with
    | true => rfl
    | false =>
      rw [rounded, ← map_value_div hb htie]
      cases a.div b <;> rfl

theorem CompareOp.holds_eq (op : CompareOp) (a b : Decimal) :
    op.holds a b = op.holdsValue a.value b.value := by
  cases op <;>
    simp only [holds, holdsValue, lt_iff_value_lt, le_iff_value_le, sameValue_iff_value_eq]

theorem value_truth (b : Bool) : (truth b).value = if b then 1 else 0 := by
  cases b with
  | true => decide +kernel
  | false => exact value_zero

/-- The number of places depends on the value only, if zeros have no sign. -/
theorem places?_eq {d : Decimal} (h : d.HasPlainZero) : places? d = placesValue d.value := by
  unfold places? placesValue
  cases hn : d.toNat? with
  | some n =>
    have hvalue := h.toNat?_eq_some_iff.1 hn
    simp only [hvalue, Rat.num_natCast, Int.toNat_natCast, true_and]
  | none =>
    have hne : d.value ≠ d.value.num.toNat := by
      intro heq
      rw [h.toNat?_eq_some_iff.2 heq] at hn
      cases hn
    rw [if_neg fun hplaces => hne hplaces.1]

/-! ### Evaluation -/

/-- **A steady formula** has the same value over decimals and over the numbers that
    they stand for. -/
theorem Expr.map_value_eval {e : Expr} (h : e.Steady) : e.eval.map value = e.evalValue := by
  induction e with
  | number d => rfl
  | neg e ih =>
    rw [evalValue, ← ih h]
    exact map_bind_eq fun a _ => congrArg Except.ok (value_neg a)
  | arith op left right ihl ihr =>
    rw [evalValue, ← ihl h.1]
    refine map_bind_eq fun a ha => ?_
    rw [← ihr (h.2 a ha).1]
    exact map_bind_eq fun b hb => ArithOp.map_value_apply ((h.2 a ha).2 b hb)
  | compare op left right ihl ihr =>
    rw [evalValue, ← ihl h.1]
    refine map_bind_eq fun a ha => ?_
    rw [← ihr (h.2 a ha)]
    refine map_bind_eq fun b _ => congrArg Except.ok ?_
    rw [value_truth, op.holds_eq]
  | cond test yes no iht ihy ihn =>
    rw [evalValue, ← iht h.1]
    refine map_bind_eq fun t ht => ?_
    -- Only the branch that is taken has to be steady.
    have htaken := h.2 t ht
    simp only [← isZero_iff_value_eq]
    cases hzero : t.isZero with
    | true =>
      rw [hzero] at htaken
      exact ihn htaken
    | false =>
      rw [hzero] at htaken
      exact ihy htaken
  | max left right ihl ihr =>
    rw [evalValue, ← ihl h.1]
    refine map_bind_eq fun a ha => ?_
    rw [← ihr (h.2 a ha)]
    exact map_bind_eq fun b _ => congrArg Except.ok (value_max a b)
  | min left right ihl ihr =>
    rw [evalValue, ← ihl h.1]
    refine map_bind_eq fun a ha => ?_
    rw [← ihr (h.2 a ha)]
    exact map_bind_eq fun b _ => congrArg Except.ok (value_min a b)
  | abs e ih =>
    rw [evalValue, ← ih h]
    exact map_bind_eq fun a _ => congrArg Except.ok (value_abs a)
  | round e ih =>
    rw [evalValue, ← ih h]
    refine map_bind_eq fun a _ => congrArg Except.ok ?_
    rw [value_roundTo, pow10_zero, Nat.cast_one, mul_one, div_one]
  | roundTo e places ihe ihp =>
    rw [evalValue, ← ihe h.1]
    refine map_bind_eq fun d hd => ?_
    rw [← ihp (h.2 d hd).1]
    refine map_bind_eq fun n hn => ?_
    -- A number of places counts by its value, for it is no zero with a sign.
    rw [places?_eq ((h.2 d hd).2 n hn)]
    cases placesValue n.value with
    | error e => rfl
    | ok k => exact congrArg Except.ok (value_roundTo k d)

end Payroll.Formula
