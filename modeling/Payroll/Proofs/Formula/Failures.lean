import Payroll.Proofs.Formula.Lexing
import Payroll.Proofs.Formula.Names

namespace Payroll.Formula

/-!
# Where formulas fail

A formula is measured, split into tokens, read and evaluated.  Every error names the step at which
it arises, and no other step fails with it.

* `Stage`, `FormulaError.stage` — the steps, and the step that an error belongs to.
* `FailsAt` — what fails at one step only; `FailsAt.bind`, so do steps in a row.
* `Stepwise` — relations of outcomes that steps in a row keep; `Stepwise.chain`, `Stepwise.primary`,
  `Stepwise.operand`, readers keep them if the readers of their parts do.
* `failsAt_parse`, `failsAt_eval` — **reading and evaluating fail at their own stages**.
* `evaluate?_eq_error_iff_tokens` — what it takes for a formula to fail when it is split.
-/

/-- The steps in the evaluation of a formula. -/
inductive Stage where
  | measuring | splitting | reading | evaluating
  deriving DecidableEq, Repr

/-- The step at which an error arises. -/
def FormulaError.stage : FormulaError → Stage
  | .tooLong _ => .measuring
  | .disallowedCharacter _ _ | .invalidNumber _ => .splitting
  | .empty | .unknownVariable _ | .unknownFunction _ | .wrongArity _ _ | .unexpectedToken _
  | .unexpectedEnd | .nestingTooDeep => .reading
  | .invalidPlaces | .divisionByZero | .overflow => .evaluating

/-- If there is an error, it belongs to the stage. -/
def FailsAt {α : Type} (stage : Stage) (x : Except FormulaError α) : Prop :=
  ∀ e, x = .error e → e.stage = stage

section

variable {α β : Type} {stage : Stage}

theorem failsAt_ok (a : α) : FailsAt stage (.ok a) := by
  intro e he
  cases he

theorem failsAt_error {e : FormulaError} (h : e.stage = stage) :
    FailsAt stage (.error e : Except FormulaError α) := by
  rintro e' he
  exact Except.error.inj he ▸ h

/-- Steps in a row fail at a stage if each of them does. -/
theorem FailsAt.bind {x : Except FormulaError α} {f : α → Except FormulaError β}
    (hx : FailsAt stage x) (hf : ∀ a, FailsAt stage (f a)) : FailsAt stage (x >>= f) := by
  intro e he
  rcases bind_eq_error_iff.1 he with hfirst | ⟨a, _, hsecond⟩
  · exact hx e hfirst
  · exact hf a e hsecond

/-- What is made of a result does not fail. -/
theorem FailsAt.pure_bind {x : Except FormulaError α} {f : α → β} (hx : FailsAt stage x) :
    FailsAt stage (x >>= fun a => pure (f a)) :=
  hx.bind fun a => failsAt_ok (f a)

end

/-! ### Reading -/

/-- Relations that hold of two outcomes if they hold of the steps that lead there: of the same
    results, of the same errors that reading comes to, and from one step to the next. -/
structure Stepwise (R : {α : Type} → Except FormulaError α → Except FormulaError α → Prop) :
    Prop where
  ok : ∀ {α : Type} (a : α), R (.ok a) (.ok a)
  error : ∀ {α : Type} {e : FormulaError}, e.stage = .reading →
    R (.error e : Except FormulaError α) (.error e)
  bind : ∀ {α β : Type} {x y : Except FormulaError α} {f g : α → Except FormulaError β}, R x y →
    (∀ a, R (f a) (g a)) → R (x >>= f) (y >>= g)

namespace Stepwise

variable {R : {α : Type} → Except FormulaError α → Except FormulaError α → Prop}
  {item item' : Reader Expr}

/-- What is made of a result makes no difference. -/
theorem pure_bind (hR : Stepwise R) {α β : Type} {x y : Except FormulaError α} (h : R x y)
    (f : α → β) :
    R (x >>= fun a => pure (f a)) (y >>= fun a => pure (f a)) :=
  hR.bind h fun a => hR.ok (f a)

theorem chainRest (hR : Stepwise R) (h : ∀ ts, R (item ts) (item' ts))
    (op? : Token → Option ArithOp) (left : Expr) (ts : List Token) :
    R (chainRest op? item left ts) (chainRest op? item' left ts) := by
  -- By induction on the tokens that are left, of which every item takes some.
  obtain ⟨n, hn⟩ : ∃ n, ts.length = n := ⟨_, rfl⟩
  induction n using Nat.strongRecOn generalizing ts left with
  | ind n ih =>
    cases ts with
    | nil =>
      rw [Formula.chainRest, Formula.chainRest]
      exact hR.ok _
    | cons t rest =>
      rw [Formula.chainRest, Formula.chainRest]
      cases op? t with
      | none => exact hR.ok _
      | some op =>
        refine hR.bind (h rest) ?_
        rintro ⟨⟨right, mid⟩, hmid⟩
        have hlt : mid.length < n := hn ▸ Nat.lt_succ_of_lt hmid
        exact hR.pure_bind (ih mid.length hlt (.arith op left right) mid rfl) _

theorem chain (hR : Stepwise R) (h : ∀ ts, R (item ts) (item' ts)) (op? : Token → Option ArithOp)
    (ts : List Token) : R (chain op? item ts) (chain op? item' ts) :=
  hR.bind (h ts) fun _ => hR.pure_bind (hR.chainRest h op? _ _) _

theorem sum (hR : Stepwise R) (h : ∀ ts, R (item ts) (item' ts)) (ts : List Token) :
    R (sum item ts) (sum item' ts) :=
  hR.chain (hR.chain h multiplicative?) additive? ts

theorem comparison (hR : Stepwise R) (h : ∀ ts, R (item ts) (item' ts)) (ts : List Token) :
    R (comparison item ts) (comparison item' ts) := by
  refine hR.bind (hR.sum h ts) ?_
  rintro ⟨⟨left, rest⟩, hrest⟩
  dsimp only
  split
  · exact hR.pure_bind (hR.sum h _) _
  · exact hR.ok _

theorem list (hR : Stepwise R) (h : ∀ ts, R (item ts) (item' ts)) (ts : List Token) :
    R (list item ts) (list item' ts) := by
  obtain ⟨n, hn⟩ : ∃ n, ts.length = n := ⟨_, rfl⟩
  induction n using Nat.strongRecOn generalizing ts with
  | ind n ih =>
    rw [Formula.list, Formula.list]
    refine hR.bind (h ts) ?_
    rintro ⟨⟨first, mid⟩, hmid⟩
    dsimp only
    split
    · rename_i rest hrest
      have hlt : rest.length < n := hn ▸ Nat.lt_of_succ_lt hrest
      exact hR.pure_bind (ih rest.length hlt rest rfl) _
    · exact hR.ok _

theorem close (hR : Stepwise R) {α : Type} (a : α) (ts : List Token) :
    R (close a ts) (close a ts) := by
  unfold Formula.close
  split
  · exact hR.ok _
  · exact hR.error rfl
  · exact hR.error rfl

theorem arguments (hR : Stepwise R) (h : ∀ ts, R (item ts) (item' ts)) (ts : List Token) :
    R (arguments item ts) (arguments item' ts) := by
  unfold Formula.arguments
  split
  · exact hR.ok _
  · exact hR.bind (hR.list h _) fun _ => hR.pure_bind (hR.close _ _) _

theorem call (hR : Stepwise R) (name : String) (args : List Expr) :
    R (call name args) (call name args) := by
  unfold Formula.call
  split
  · exact hR.error rfl
  · split
    · exact hR.ok _
    · exact hR.error rfl

theorem primary (hR : Stepwise R) (vars : Variables) (h : ∀ ts, R (item ts) (item' ts))
    (ts : List Token) :
    R (primary vars item ts) (primary vars item' ts) := by
  unfold Formula.primary
  split
  · exact hR.error rfl
  · exact hR.ok _
  · exact hR.bind (h _) fun _ => hR.pure_bind (hR.close _ _) _
  · exact hR.bind (hR.arguments h _) fun _ => hR.pure_bind (hR.call _ _) _
  · refine hR.pure_bind ?_ _
    unfold lookUp
    split
    · exact hR.ok _
    · exact hR.error rfl
  · exact hR.error rfl

/-- Operands with no more levels than others are related to them, if they are where there
    is no level. -/
theorem operand (hR : Stepwise R) (vars : Variables)
    (hnone : ∀ more ts, R (operand vars 0 ts) (operand vars more ts)) {levels more : Nat}
    (hle : levels ≤ more) (ts : List Token) :
    R (operand vars levels ts) (operand vars more ts) := by
  induction levels generalizing more ts with
  | zero => exact hnone more ts
  | succ levels ih =>
    obtain ⟨more, rfl⟩ : ∃ n, more = n + 1 := ⟨more - 1, by omega⟩
    have hinner := ih (Nat.le_of_succ_le_succ hle)
    unfold Formula.operand
    dsimp only
    split
    · exact hR.pure_bind (hinner _) _
    · exact hR.pure_bind (hinner _) _
    · exact hR.primary vars (hR.comparison hinner) _

end Stepwise

/-- Failing in reading is such a relation, of one outcome alone. -/
theorem stepwise_failsAt : Stepwise fun x _ => FailsAt .reading x where
  ok := failsAt_ok
  error := failsAt_error
  bind := FailsAt.bind

theorem failsAt_operand (vars : Variables) (levels : Nat) (ts : List Token) :
    FailsAt .reading (operand vars levels ts) :=
  stepwise_failsAt.operand vars (fun _ _ => failsAt_error rfl) (Nat.le_refl levels) ts

theorem failsAt_parse (vars : Variables) (ts : List Token) : FailsAt .reading (parse vars ts) := by
  let item := operand vars maxNesting
  have hread : FailsAt .reading (comparison item ts) :=
    @Stepwise.comparison _ item item stepwise_failsAt (failsAt_operand vars maxNesting) ts
  refine hread.bind ?_
  rintro ⟨⟨e, rest⟩, _⟩
  cases rest with
  | nil => exact failsAt_ok _
  | cons t rest => exact failsAt_error rfl

/-! ### Evaluating -/

theorem failsAt_arith (op : ArithOp) (a b : Decimal) : FailsAt .evaluating (op.apply a b) := by
  unfold ArithOp.apply
  cases op with
  | add => cases a.add b <;> first | exact failsAt_ok _ | exact failsAt_error rfl
  | sub => cases a.sub b <;> first | exact failsAt_ok _ | exact failsAt_error rfl
  | mul => cases a.mul b <;> first | exact failsAt_ok _ | exact failsAt_error rfl
  | div =>
    dsimp only
    split
    · exact failsAt_error rfl
    · cases a.div b <;> first | exact failsAt_ok _ | exact failsAt_error rfl

theorem failsAt_places (d : Decimal) : FailsAt .evaluating (places? d) := by
  unfold places?
  split
  · split
    · exact failsAt_ok _
    · exact failsAt_error rfl
  · exact failsAt_error rfl

theorem failsAt_eval (e : Expr) : FailsAt .evaluating e.eval := by
  induction e with
  | number d => exact failsAt_ok d
  | neg e ih | abs e ih | round e ih => exact ih.pure_bind
  | arith op left right ihl ihr => exact ihl.bind fun a => ihr.bind fun b => failsAt_arith op a b
  | compare op left right ihl ihr | max left right ihl ihr | min left right ihl ihr =>
    exact ihl.bind fun a => ihr.pure_bind
  | cond test yes no iht ihy ihn =>
    refine iht.bind fun t => ?_
    split
    · exact ihn
    · exact ihy
  | roundTo e places ihe ihp =>
    exact ihe.bind fun d => ihp.bind fun p => (failsAt_places p).pure_bind

/-! ### Formulas -/

/-- **A formula fails in splitting** exactly if it is short enough and has no tokens. -/
theorem evaluate?_eq_error_iff_tokens {text : String} {vars : Variables} {e : FormulaError}
    (h : e.stage = .splitting) :
    evaluate? text vars = .error e ↔ text.length ≤ maxLength ∧ tokens text = .error e := by
  have hother : ∀ stage, e.stage = stage → stage = .splitting := fun stage heq => heq.symm.trans h
  rcases Nat.lt_or_ge maxLength text.length with hlong | hshort
  · rw [evaluate?_of_length_gt hlong, Except.error.injEq]
    constructor
    · rintro rfl
      cases h
    · rintro ⟨hle, _⟩
      exact absurd hle (Nat.not_le.2 hlong)
  · rw [evaluate?_of_length_le hshort, bind_eq_error_iff]
    constructor
    · rintro (htokens | ⟨ts, _, hlater⟩)
      · exact ⟨hshort, htokens⟩
      · -- Later steps fail with other errors.
        split at hlater
        · cases hlater
          cases h
        · rcases bind_eq_error_iff.1 hlater with hparse | ⟨tree, _, heval⟩
          · cases hother _ (failsAt_parse vars ts e hparse)
          · cases hother _ (failsAt_eval tree e heval)
    · rintro ⟨_, htokens⟩
      exact .inl htokens

end Payroll.Formula
