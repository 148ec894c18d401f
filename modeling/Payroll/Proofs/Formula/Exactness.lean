import Payroll.Formula
import Payroll.Proofs.Formula.Values

namespace Payroll.Formula

/-!
# Formulas that lose nothing

Every operation rounds its result where a decimal has no room for more digits, however much room
there was for the exact one in the end.  Here a formula is evaluated over rational numbers without
rounding anything, unless the formula asks for it.  If decimals stand for all that is met on the
way, then the two agree: no operation drops a digit that it could have kept.

* `ArithOp.exactValue?`, `Expr.exactValue?` — the exact value of an operation and of a formula.
* `Expr.evaluated` — the parts of a formula that are evaluated; a branch that is not taken is
  none of them.
* `ArithOp.apply_of_exactValue?` — an operation whose exact result fits gives it.
* `Expr.eval_exact` — **a formula whose evaluated parts fit has its exact value**.
-/

open Decimal

/-! ### Exact values -/

/-- The exact result of an operation; there is none of a division by zero. -/
def ArithOp.exactValue? (op : ArithOp) (p q : ℚ) : Option ℚ :=
  match op with
  | .add => some (p + q)
  | .sub => some (p - q)
  | .mul => some (p * q)
  | .div => if q = 0 then none else some (p / q)

/-- The exact value of a formula.  There is none if the formula divides by zero, or rounds to
    anything but a whole number of places from zero to ten. -/
def Expr.exactValue? : Expr → Option ℚ
  | .number d => some d.value
  | .neg e => do return -(← e.exactValue?)
  | .arith op left right => do
    let p ← left.exactValue?
    let q ← right.exactValue?
    op.exactValue? p q
  | .compare op left right => do
    let p ← left.exactValue?
    let q ← right.exactValue?
    return if op.holdsValue p q then 1 else 0
  | .cond test yes no => do
    let q ← test.exactValue?
    if q = 0 then no.exactValue? else yes.exactValue?
  | .max left right => do
    let p ← left.exactValue?
    let q ← right.exactValue?
    return Max.max p q
  | .min left right => do
    let p ← left.exactValue?
    let q ← right.exactValue?
    return Min.min p q
  | .abs e => do return |← e.exactValue?|
  | .round e => do return nearestWhole (← e.exactValue?)
  | .roundTo e places => do
    let q ← e.exactValue?
    let n ← (placesValue (← places.exactValue?)).toOption
    return nearestWhole (q * pow10 n) / pow10 n

/-- The parts of a formula that are evaluated, the whole of it included: all but the branches that
    are not taken. -/
def Expr.evaluated : Expr → List Expr
  | .number d => [.number d]
  | .neg e => .neg e :: e.evaluated
  | .arith op left right => .arith op left right :: (left.evaluated ++ right.evaluated)
  | .compare op left right => .compare op left right :: (left.evaluated ++ right.evaluated)
  | .cond test yes no => .cond test yes no ::
      (test.evaluated ++ if test.exactValue? = some 0 then no.evaluated else yes.evaluated)
  | .max left right => .max left right :: (left.evaluated ++ right.evaluated)
  | .min left right => .min left right :: (left.evaluated ++ right.evaluated)
  | .abs e => .abs e :: e.evaluated
  | .round e => .round e :: e.evaluated
  | .roundTo e places => .roundTo e places :: (e.evaluated ++ places.evaluated)

/-- If this rounds to a number of places, then the number is no zero with a sign. -/
def Expr.HasPlainPlaces : Expr → Prop
  | .roundTo _ places => ∀ n, places.eval = .ok n → n.HasPlainZero
  | _ => True

instance : (e : Expr) → Decidable e.HasPlainPlaces
  | .roundTo _ places => inferInstanceAs (Decidable (∀ n, places.eval = .ok n → n.HasPlainZero))
  | .number _ | .neg _ | .arith _ _ _ | .compare _ _ _ | .cond _ _ _ | .max _ _ | .min _ _ | .abs _
  | .round _ => isTrue trivial

/-! ### Operations -/

/-- A quotient is exact if the divisor is not zero. -/
theorem ArithOp.exactValue?_div {p q x : ℚ} :
    ArithOp.div.exactValue? p q = some x ↔ q ≠ 0 ∧ p / q = x := by
  by_cases hq : q = 0 <;> simp [exactValue?, hq]

/-- Rounding an exact result that fits changes nothing. -/
theorem ArithOp.applyValue_of_exactValue? {op : ArithOp} {p q x : ℚ}
    (h : op.exactValue? p q = some x) (hfits : Fits x) : op.applyValue p q = .ok x := by
  have hrounded : rounded x = .ok x := by rw [rounded, nearest?_of_fits hfits]
  cases op with
  | add | sub | mul => exact Option.some.inj h ▸ hrounded
  | div =>
    obtain ⟨hq, rfl⟩ := exactValue?_div.1 h
    rw [applyValue, if_neg hq, hrounded]

/-- **An operation** whose exact result fits gives this result. -/
theorem ArithOp.apply_of_exactValue? {op : ArithOp} {a b : Decimal} {x : ℚ}
    (h : op.exactValue? a.value b.value = some x) (hfits : Fits x) :
    ∃ d, op.apply a b = .ok d ∧ d.value = x := by
  have htie : ¬ (op = .div ∧ a.TiesUp b) := by
    rintro ⟨rfl, htie⟩
    obtain ⟨_, rfl⟩ := exactValue?_div.1 h
    exact hfits.not_tiesUp htie
  have hvalue := (map_value_apply htie).trans (applyValue_of_exactValue? h hfits)
  cases hd : op.apply a b with
  | error e =>
    rw [hd] at hvalue
    cases hvalue
  | ok d =>
    rw [hd] at hvalue
    exact ⟨d, rfl, Except.ok.inj hvalue⟩

/-! ### Evaluation -/

/-- **A formula whose evaluated parts fit** has its exact value: if there is an exact value of
    everything that is evaluated, a decimal stands for each of them, and nothing is rounded to a
    number of places that is a zero with a sign.  What is not evaluated does not count. -/
theorem Expr.eval_exact (e : Expr) (hfits : ∀ part ∈ e.evaluated, ∃ q ∈ part.exactValue?, Fits q)
    (hplaces : ∀ part ∈ e.evaluated, part.HasPlainPlaces) :
    ∃ d, e.eval = .ok d ∧ e.exactValue? = some d.value := by
  induction e with
  | number d => exact ⟨d, rfl, rfl⟩
  | neg e ih =>
    rw [evaluated, List.forall_mem_cons] at hfits hplaces
    obtain ⟨a, ha, hp⟩ := ih hfits.2 hplaces.2
    refine ⟨a.neg, by rw [eval, ha]; rfl, ?_⟩
    rw [exactValue?, hp, value_neg]
    rfl
  | arith op left right ihl ihr =>
    rw [evaluated, List.forall_mem_cons, List.forall_mem_append] at hfits hplaces
    obtain ⟨a, ha, hp⟩ := ihl hfits.2.1 hplaces.2.1
    obtain ⟨b, hb, hq⟩ := ihr hfits.2.2 hplaces.2.2
    have hexact : (arith op left right).exactValue? = op.exactValue? a.value b.value := by
      rw [exactValue?, hp, hq]
      rfl
    -- This is where digits could be lost, if the exact result did not fit.
    obtain ⟨x, hx, hfit⟩ := hfits.1
    rw [hexact, Option.mem_def] at hx
    obtain ⟨d, hd, rfl⟩ := ArithOp.apply_of_exactValue? hx hfit
    refine ⟨d, ?_, hexact.trans hx⟩
    rw [eval, ha, hb]
    exact hd
  | compare op left right ihl ihr =>
    rw [evaluated, List.forall_mem_cons, List.forall_mem_append] at hfits hplaces
    obtain ⟨a, ha, hp⟩ := ihl hfits.2.1 hplaces.2.1
    obtain ⟨b, hb, hq⟩ := ihr hfits.2.2 hplaces.2.2
    refine ⟨truth (op.holds a b), by rw [eval, ha, hb]; rfl, ?_⟩
    rw [exactValue?, hp, hq, value_truth, op.holds_eq]
    rfl
  | cond test yes no iht ihy ihn =>
    rw [evaluated, List.forall_mem_cons, List.forall_mem_append] at hfits hplaces
    obtain ⟨t, ht, hq⟩ := iht hfits.2.1 hplaces.2.1
    obtain ⟨-, -, hfits⟩ := hfits
    obtain ⟨-, -, hplaces⟩ := hplaces
    have heval : (cond test yes no).eval = if t.isZero then no.eval else yes.eval := by
      rw [eval, ht]
      rfl
    have hexact : (cond test yes no).exactValue?
        = if t.value = 0 then no.exactValue? else yes.exactValue? := by
      rw [exactValue?, hq]
      rfl
    -- The same branch is taken over decimals and over numbers, and it is the one that counts.
    rw [heval, hexact]
    simp only [hq, Option.some.injEq, ← isZero_iff_value_eq] at hfits hplaces ⊢
    cases hzero : t.isZero with
    | true =>
      rw [hzero, if_pos rfl] at hfits hplaces
      exact ihn hfits hplaces
    | false =>
      rw [hzero, if_neg Bool.false_ne_true] at hfits hplaces
      exact ihy hfits hplaces
  | max left right ihl ihr =>
    rw [evaluated, List.forall_mem_cons, List.forall_mem_append] at hfits hplaces
    obtain ⟨a, ha, hp⟩ := ihl hfits.2.1 hplaces.2.1
    obtain ⟨b, hb, hq⟩ := ihr hfits.2.2 hplaces.2.2
    refine ⟨a.max b, by rw [eval, ha, hb]; rfl, ?_⟩
    rw [exactValue?, hp, hq, value_max]
    rfl
  | min left right ihl ihr =>
    rw [evaluated, List.forall_mem_cons, List.forall_mem_append] at hfits hplaces
    obtain ⟨a, ha, hp⟩ := ihl hfits.2.1 hplaces.2.1
    obtain ⟨b, hb, hq⟩ := ihr hfits.2.2 hplaces.2.2
    refine ⟨a.min b, by rw [eval, ha, hb]; rfl, ?_⟩
    rw [exactValue?, hp, hq, value_min]
    rfl
  | abs e ih =>
    rw [evaluated, List.forall_mem_cons] at hfits hplaces
    obtain ⟨a, ha, hp⟩ := ih hfits.2 hplaces.2
    refine ⟨a.abs, by rw [eval, ha]; rfl, ?_⟩
    rw [exactValue?, hp, value_abs]
    rfl
  | round e ih =>
    rw [evaluated, List.forall_mem_cons] at hfits hplaces
    obtain ⟨a, ha, hp⟩ := ih hfits.2 hplaces.2
    refine ⟨a.roundTo 0, by rw [eval, ha]; rfl, ?_⟩
    rw [exactValue?, hp, value_roundTo, pow10_zero, Nat.cast_one, mul_one, div_one]
    rfl
  | roundTo e places ihe ihp =>
    rw [evaluated, List.forall_mem_cons, List.forall_mem_append] at hfits hplaces
    obtain ⟨a, ha, hp⟩ := ihe hfits.2.1 hplaces.2.1
    obtain ⟨n, hn, hq⟩ := ihp hfits.2.2 hplaces.2.2
    have hexact : (roundTo e places).exactValue? = (placesValue n.value).toOption.bind
        fun k => some (nearestWhole (a.value * pow10 k) / pow10 k : ℚ) := by
      rw [exactValue?, hp, hq]
      rfl
    obtain ⟨x, hx, -⟩ := hfits.1
    rw [hexact] at hx
    have hcount := places?_eq (hplaces.1 n hn)
    cases hk : placesValue n.value with
    | error _ =>
      rw [hk] at hx
      cases hx
    | ok k =>
      refine ⟨a.roundTo k,
        by rw [eval, ha, hn]; simp [bind, Except.bind, hcount, hk, pure, Except.pure], ?_⟩
      rw [hexact, hk, value_roundTo]
      rfl

/-- Half of a number of twenty-nine digits, divided down and rounded to two places.  If the test
    failed, the formula would divide by zero. -/
def sharedOut : String :=
  "IF(0.1 + 0.2 == 0.3, " ++
    "ROUND(0.5 * 79228162514264337593543950334 / 10000000000000000000000000, 5 - 3.0), 1 / 0)"

theorem Expr.eval_exact_sharedOut :
    ∃ ts e, tokens sharedOut = .ok ts ∧ parse .empty ts = .ok e ∧
      (∀ part ∈ e.evaluated, ∃ q ∈ part.exactValue?, Fits q) ∧
      (∀ part ∈ e.evaluated, part.HasPlainPlaces) ∧
      ∃ d, e.eval = .ok d ∧ d.value = 396141 / 100 := by
  have hall : (tokens sharedOut).toOption.any (fun ts =>
      (parse .empty ts).toOption.any fun e : Expr =>
        decide (∀ part ∈ e.evaluated, ∃ q ∈ part.exactValue?, Fits q) &&
          decide (∀ part ∈ e.evaluated, part.HasPlainPlaces) &&
          decide (e.exactValue? = some (396141 / 100))) = true := by decide +kernel
  obtain ⟨ts, hts, hread⟩ := exists_ok_of_any hall
  obtain ⟨e, he, hchecks⟩ := exists_ok_of_any hread
  simp only [Bool.and_eq_true, decide_eq_true_eq] at hchecks
  obtain ⟨⟨hfits, hplaces⟩, hexact⟩ := hchecks
  obtain ⟨d, hd, hvalue⟩ := e.eval_exact hfits hplaces
  exact ⟨ts, e, hts, he, hfits, hplaces, d, hd, Option.some.inj (hvalue.symm.trans hexact)⟩

end Payroll.Formula
