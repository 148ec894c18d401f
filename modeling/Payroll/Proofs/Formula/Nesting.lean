import Mathlib.Logic.Function.Iterate
import Payroll.Proofs.Formula.Failures
import Payroll.Proofs.Formula.Parsing

namespace Payroll.Formula

/-!
# How deep formulas are nested

Every operand takes up a level of nesting, the outermost one too: of the 64 levels there are 63 left
for what stands around a primary.  Readers count the levels down from left to right and stop
wherever none is left; what has been read before does not use up any.  So a reader with fewer levels
either stops for that reason or does what it would do with more of them, and with enough levels a
phrase is read.

* `Phrase.levels`, `within_iff` — how many parentheses, calls and signs there are around each
  primary, and the limit in terms of them.
* `CutOff`, `cutOff_operand` — **fewer levels make no other difference** than that reading
  is cut off.
* `comparison_of_not_within`, `parse_of_derives` — hence a phrase is cut off exactly if it goes
  beyond the levels.
* `evaluate?_nesting` — so that a formula whose names and calls are right is nested too deep exactly
  if there are 64 levels or more around a primary of it.
* `evaluate?_sixtyFour` — and 64 parentheses are too many.
-/

/-! ### Levels around a primary -/

/-- For each primary of the phrase, the number of parentheses, calls and signs around it, with so
    many of them around the phrase. -/
def Phrase.levels : Nat → Phrase → List Nat
  | around, .number _ => [around]
  | around, .name _ => [around]
  | around, .call _ args => around :: args.levels (around + 1)
  | around, .parens p => around :: p.levels (around + 1)
  | around, .minus p => p.levels (around + 1)
  | around, .plus p => p.levels (around + 1)
  | around, .arith _ p q => p.levels around ++ q.levels around
  | around, .compare _ p q => p.levels around ++ q.levels around
  | around, .arguments p rest => p.levels around ++ rest.levels around

/-- The limit on nesting, said of the primaries. -/
theorem within_iff {p : Phrase} {limit around : Nat} :
    p.Within limit around ↔ ∀ n ∈ p.levels around, n < limit := by
  induction p generalizing around with
  | number v => simp only [Phrase.Within, Phrase.levels, List.forall_mem_singleton]; omega
  | name x => simp only [Phrase.Within, Phrase.levels, List.forall_mem_singleton]; omega
  | call f args ih | parens args ih =>
    rw [Phrase.Within, Phrase.levels, List.forall_mem_cons, ih, Nat.add_comm]
    rfl
  | minus p ih | plus p ih => exact ih
  | arith op p q ihp ihq | compare op p q ihp ihq | arguments p q ihp ihq =>
    rw [Phrase.Within, Phrase.levels, List.forall_mem_append, ihp, ihq]

instance {p : Phrase} {limit around : Nat} : Decidable (p.Within limit around) :=
  decidable_of_iff _ within_iff.symm

/-! ### Fewer levels -/

/-- What is nested too deep for the first one, and the same for both otherwise. -/
def CutOff {α : Type} (x y : Except FormulaError α) : Prop := x = .error .nestingTooDeep ∨ x = y

/-- Steps in a row are cut off where one of them is. -/
theorem stepwise_cutOff : Stepwise CutOff where
  ok _ := .inr rfl
  error _ := .inr rfl
  bind := by
    rintro α β x y f g (rfl | rfl) hfg
    · exact .inl rfl
    · cases x with
      | error e => exact .inr rfl
      | ok a => exact hfg a

section

variable {vars : Variables} {levels more : Nat} {ts us : List Token} {p : Phrase} {e : Expr}

/-- **Fewer levels** make no other difference than that reading is cut off. -/
theorem cutOff_operand (hle : levels ≤ more) (ts : List Token) :
    CutOff (operand vars levels ts) (operand vars more ts) :=
  stepwise_cutOff.operand vars (fun _ _ => .inl rfl) hle ts

/-- A phrase that goes beyond the levels, all else being right with it, is cut off. -/
theorem comparison_of_not_within (hp : Derives .comparison ts p []) (hm : p.Means vars [e])
    (hw : ¬ p.Within levels 0) : comparison (operand vars levels) ts = .error .nestingTooDeep := by
  -- With enough levels the phrase would be read.
  obtain ⟨enough, henough⟩ := p.exists_within 0
  have hread := (complete_operand vars (max levels enough)).comparison hp
    (henough.mono (Nat.le_max_right ..)) hm (Category.ends_nil _)
  rcases stepwise_cutOff.comparison (cutOff_operand (Nat.le_max_left levels enough)) ts with
    hcut | hsame
  · exact hcut
  · rw [← hsame] at hread
    obtain ⟨q, hq, hwq, _⟩ := (sound_operand vars levels).comparison hread
    exact absurd (hp.unique hq ▸ hwq) hw

/-- A phrase with a meaning is read if it is within the levels, and is nested too deep otherwise. -/
theorem parse_of_derives (hp : Derives .comparison ts p []) (hm : p.Means vars [e]) :
    parse vars ts = if p.Within maxNesting 0 then .ok e else .error .nestingTooDeep := by
  split
  · rename_i hw
    exact parse_iff.2 ((complete_operand vars maxNesting).comparison hp hw hm (Category.ends_nil _))
  · rename_i hw
    rw [parse, comparison_of_not_within hp hm hw]
    rfl

/-- No phrase is made of nothing. -/
theorem Derives.ne_nil {c : Category} {us : List Token} (h : Derives c ts p us) : ts ≠ [] := by
  induction h with
  | number | name | call | parens | minus | plus => exact List.cons_ne_nil _ _
  | primary _ ih | operand _ ih | product _ ih | sum _ ih | argument _ ih => exact ih
  | multiply _ _ _ ih | add _ _ _ ih | compare _ _ ih | arguments _ _ ih => exact ih

/-- A formula that means something has its value, unless it is nested too deep. -/
theorem evaluate?_of_derives {text : String} (hlength : text.length ≤ maxLength)
    (htokens : tokens text = .ok ts) (hp : Derives .comparison ts p []) (hm : p.Means vars [e]) :
    evaluate? text vars = if p.Within maxNesting 0 then e.eval else .error .nestingTooDeep := by
  have hne : ¬ ts.isEmpty := fun h => hp.ne_nil (List.isEmpty_iff.1 h)
  rw [evaluate?_of_length_le hlength, htokens]
  change (if ts.isEmpty then _ else _) = _
  rw [if_neg hne, parse_of_derives hp hm]
  split <;> rfl

end

/-! ### Parentheses around a number -/

/-- The number one with so many parentheses around it. -/
def enclosedOne (n : Nat) : List Char := List.replicate n '(' ++ '1' :: List.replicate n ')'

/-- Its tokens. -/
def enclosedOneTokens (n : Nat) : List Token :=
  List.replicate n .leftParen ++ .number .one :: List.replicate n .rightParen

theorem splits_replicate {c : Char} {t : Token} (spells : Spells [c] t)
    (stops : ∀ next, t.Stops next) (n : Nat) (next : Option Char) :
    Splits (List.replicate n c) (List.replicate n t) next := by
  induction n with
  | zero => exact .nil
  | succ n ih => exact .token spells (stops _) ih

theorem splits_enclosedOne {n : Nat} {next : Option Char}
    (hnext : ∀ c ∈ next, isNumeral c = false) :
    Splits (enclosedOne n) (enclosedOneTokens n) next := by
  have hright : Splits (List.replicate n ')') (List.replicate n .rightParen) next :=
    splits_replicate .rightParen (fun _ => trivial) n next
  have hone : Spells ['1'] (.number .one) :=
    .number (List.cons_ne_nil _ _) (by simp [isNumeral]) (by decide +kernel)
  refine (splits_replicate .leftParen (fun _ => trivial) n _).append (.token hone ?_ hright)
  cases n with
  | zero => exact hnext
  | succ n => simp [Token.Stops, List.replicate_succ, isNumeral]

theorem length_enclosedOne (n : Nat) : (enclosedOne n).length = 2 * n + 1 := by
  simp only [enclosedOne, List.length_append, List.length_cons, List.length_replicate]
  omega

/-- The tokens are a factor, whatever stands behind them. -/
theorem derives_enclosedOne (n : Nat) (us : List Token) :
    Derives .product (enclosedOneTokens n ++ us) (Phrase.parens^[n] (.number .one)) us := by
  induction n generalizing us with
  | zero => exact .operand (.primary .number)
  | succ n ih =>
    have htokens : enclosedOneTokens (n + 1) ++ us
        = .leftParen :: (enclosedOneTokens n ++ .rightParen :: us) := by
      rw [enclosedOneTokens, enclosedOneTokens, List.replicate_succ, List.replicate_succ']
      simp
    rw [htokens, Function.iterate_succ_apply']
    exact .operand (.primary (.parens (.sum (.product (ih _)))))

/-- Parentheses do not change what is meant. -/
theorem Phrase.Means.enclosed {vars : Variables} {p : Phrase} {e : Expr} (h : p.Means vars [e])
    (n : Nat) :
    (Phrase.parens^[n] p).Means vars [e] := by
  induction n with
  | zero => exact h
  | succ n ih =>
    rw [Function.iterate_succ_apply']
    exact .parens ih

/-! ### Formulas -/

/-- **How deep a formula can be nested.**  If its tokens form a phrase and its names and calls
    are right, it is nested too deep exactly if there are 64 parentheses, calls and signs or
    more around one of its primaries, whatever there is beside it.  Otherwise it has the value
    of what it means. -/
theorem evaluate?_nesting {text : String} {vars : Variables} {ts : List Token} {p : Phrase}
    {e : Expr} (hlength : text.length ≤ 1024) (htokens : tokens text = .ok ts)
    (hp : Derives .comparison ts p []) (hm : p.Means vars [e]) :
    (evaluate? text vars = .error .nestingTooDeep ↔ ∃ n ∈ p.levels 0, 64 ≤ n) ∧
      ((∀ n ∈ p.levels 0, n ≤ 63) → evaluate? text vars = e.eval) := by
  have hwithin : p.Within maxNesting 0 ↔ ∀ n ∈ p.levels 0, n ≤ 63 :=
    within_iff.trans (forall₂_congr fun n _ => Nat.lt_succ_iff)
  have hbeyond : ¬ p.Within maxNesting 0 ↔ ∃ n ∈ p.levels 0, 64 ≤ n := by
    rw [within_iff]
    push Not
    rfl
  rw [evaluate?_of_derives hlength htokens hp hm, ← hbeyond, ← hwithin]
  refine ⟨?_, fun hw => if_pos hw⟩
  split
  · rename_i hw
    -- What is nested too deep fails before it is evaluated.
    refine iff_of_false (fun h => ?_) (not_not.2 hw)
    cases failsAt_eval e _ h
  · rename_i hw
    exact iff_of_true rfl hw

/-- Two numbers in 63 parentheses each are added up, and with one more pair around the second one
    there is no sum. -/
theorem evaluate?_nesting_siblings :
    let sum n := String.ofList (enclosedOne 63 ++ '+' :: enclosedOne n)
    evaluate? (sum 63) .empty = .ok ⟨false, 2, 0, by decide, by decide⟩ ∧
      evaluate? (sum 64) .empty = .error .nestingTooDeep := by
  intro sum
  have hlength : ∀ n ≤ 64, (sum n).length ≤ 1024 := by
    intro n hn
    rw [String.length_ofList, List.length_append, List.length_cons, length_enclosedOne,
      length_enclosedOne]
    omega
  have htokens : ∀ n, tokens (sum n)
      = .ok (enclosedOneTokens 63 ++ .arith .add :: (enclosedOneTokens n ++ [])) := by
    intro n
    rw [tokens, String.toList_ofList, tokensFrom_eq_ok_iff, List.append_nil]
    refine (splits_enclosedOne ?_).append
      (.token (.arith .add) trivial (splits_enclosedOne (by simp)))
    simp [isNumeral]
  have hp := fun n =>
    Derives.sum (.add (.inl rfl) (.product (derives_enclosedOne 63 _)) (derives_enclosedOne n []))
  have hone : Phrase.Means .empty (.number .one) [.number .one] := .number
  have hm : ∀ n,
      (Phrase.arith .add (Phrase.parens^[63] (.number .one))
        (Phrase.parens^[n] (.number .one))).Means
        .empty [.arith .add (.number .one) (.number .one)] :=
    fun n => .arith (hone.enclosed 63) (hone.enclosed n)
  constructor
  · refine ((evaluate?_nesting (hlength 63 (by decide)) (htokens 63) (hp 63) (hm 63)).2 ?_).trans ?_
    · decide +kernel
    · decide +kernel
  · refine (evaluate?_nesting (hlength 64 (by decide)) (htokens 64) (hp 64) (hm 64)).1.2 ?_
    decide +kernel

/-- **One in 64 parentheses** is nested too deep, although none of its primaries has more than 64
    around it and all else is right with it. -/
theorem evaluate?_sixtyFour :
    let text := String.ofList (enclosedOne 64)
    ∃ ts p e, text.length ≤ 1024 ∧ tokens text = .ok ts ∧ Derives .comparison ts p [] ∧
      p.Means .empty [e] ∧ (∀ n ∈ p.levels 0, n ≤ 64) ∧ e.eval = .ok .one ∧
        evaluate? text .empty = .error .nestingTooDeep := by
  intro text
  have hlength : text.length ≤ 1024 := by
    rw [String.length_ofList, length_enclosedOne]
    decide
  have htokens : tokens text = .ok (enclosedOneTokens 64 ++ []) := by
    rw [tokens, String.toList_ofList, tokensFrom_eq_ok_iff, List.append_nil]
    exact splits_enclosedOne (by simp)
  have hp := Derives.sum (.product (derives_enclosedOne 64 []))
  have hm : (Phrase.parens^[64] (.number .one)).Means .empty [.number .one] :=
    Phrase.Means.number.enclosed 64
  refine ⟨_, _, _, hlength, htokens, hp, hm, by decide +kernel, rfl, ?_⟩
  rw [evaluate?_of_derives hlength htokens hp hm]
  exact if_neg (by decide +kernel)

end Payroll.Formula
