import Payroll.Proofs.Formula.Grammar

namespace Payroll.Formula

/-!
# Chains of operations

Sums and products are derived alike: a part, and then operators with further parts, grouped from the
left.  What holds of one holds of the other, and is said once.

* `Category.Ends` — the next token is none that a phrase of the kind could go on with.
* `Chained` — what sums have in common with products, and `chained_sum`, `chained_product`.
* `Extends` — a chain read from the left, as a reader goes through it.
* `Chained.split` — every chain is its first part, extended.
-/

/-! ### Ends -/

/-- Tokens that a phrase of the kind could go on with.  A parenthesis is one of them for all kinds,
    as it turns the name before it into a call. -/
def Category.goesOn : Category → Token → Bool
  | _, .leftParen => true
  | .product, .arith op => op == .mul || op == .div
  | .sum, .arith _ => true
  | .comparison, .arith _ => true
  | .comparison, .compare _ => true
  | .arguments, .arith _ => true
  | .arguments, .compare _ => true
  | .arguments, .comma => true
  | _, _ => false

/-- No phrase of the kind goes on in `us`. -/
def Category.Ends (c : Category) (us : List Token) : Prop := ∀ t ∈ us.head?, c.goesOn t = false

theorem Category.ends_nil (c : Category) : c.Ends [] := by
  intro t h
  cases h

theorem Category.ends_cons {c : Category} {t : Token} {us : List Token} :
    c.Ends (t :: us) ↔ c.goesOn t = false := by
  simp [Ends]

/-- Nothing ends in front of a token that it goes on with. -/
theorem Category.not_ends {c : Category} {t : Token} (us : List Token) (h : c.goesOn t = true) :
    ¬ c.Ends (t :: us) := by
  rw [ends_cons, h]
  decide

/-- A closing parenthesis ends everything. -/
theorem Category.ends_rightParen (c : Category) (us : List Token) : c.Ends (.rightParen :: us) := by
  rw [ends_cons]
  cases c <;> rfl

/-- What can follow a phrase of a kind can follow its parts. -/
theorem Category.Ends.of_goesOn {c d : Category} {us : List Token} (h : c.Ends us)
    (hle : ∀ t, d.goesOn t = true → c.goesOn t = true) : d.Ends us := by
  intro t ht
  rw [← Bool.not_eq_true]
  exact fun hd => absurd (hle t hd) (by simp [h t ht])

theorem Category.Ends.primary_of_operand {us : List Token} (h : operand.Ends us) :
    primary.Ends us :=
  h.of_goesOn fun t ht => by cases t <;> simp_all [goesOn]

theorem Category.Ends.sum_of_comparison {us : List Token} (h : comparison.Ends us) : sum.Ends us :=
  h.of_goesOn fun t ht => by cases t <;> simp_all [goesOn]

theorem Category.Ends.comparison_of_arguments {us : List Token} (h : arguments.Ends us) :
    comparison.Ends us :=
  h.of_goesOn fun t ht => by cases t <;> simp_all [goesOn]

/-! ### Chains -/

theorem additive?_eq_some_iff {t : Token} {op : ArithOp} :
    additive? t = some op ↔ t = .arith op ∧ (op = .add ∨ op = .sub) := by
  constructor
  · intro h
    unfold additive? at h
    split at h
    · cases h
      exact ⟨rfl, .inl rfl⟩
    · cases h
      exact ⟨rfl, .inr rfl⟩
    · cases h
  · rintro ⟨rfl, rfl | rfl⟩ <;> rfl

theorem multiplicative?_eq_some_iff {t : Token} {op : ArithOp} :
    multiplicative? t = some op ↔ t = .arith op ∧ (op = .mul ∨ op = .div) := by
  constructor
  · intro h
    unfold multiplicative? at h
    split at h
    · cases h
      exact ⟨rfl, .inl rfl⟩
    · cases h
      exact ⟨rfl, .inr rfl⟩
    · cases h
  · rintro ⟨rfl, rfl | rfl⟩ <;> rfl

/-- Phrases of kind `whole` are parts joined by operators, grouped from the left. -/
structure Chained (op? : Token → Option ArithOp) (part whole : Category) : Prop where
  one : ∀ {ts us p}, Derives part ts p us → Derives whole ts p us
  more : ∀ {ts us vs p q op t}, op? t = some op → Derives whole ts p (t :: us) →
    Derives part us q vs → Derives whole ts (.arith op p q) vs
  /-- There is no other way to derive them. -/
  inv : ∀ {ts vs r}, Derives whole ts r vs → Derives part ts r vs ∨
    ∃ op t p q us, r = .arith op p q ∧ op? t = some op ∧ Derives whole ts p (t :: us) ∧
      Derives part us q vs
  /-- A chain can go on where its last part can, and with an operator. -/
  goesOn_iff : ∀ t, whole.goesOn t = true ↔ part.goesOn t = true ∨ (op? t).isSome = true
  /-- A part does not go on with the operators. -/
  goesOn_of_op : ∀ {t op}, op? t = some op → part.goesOn t = false

theorem chained_product : Chained multiplicative? .operand .product where
  one := .operand
  more := by
    intro ts us vs p q op t hop left right
    obtain ⟨rfl, sign⟩ := multiplicative?_eq_some_iff.1 hop
    exact .multiply sign left right
  inv := by
    intro ts vs r h
    cases h with
    | operand part => exact .inl part
    | multiply sign left right =>
      exact .inr ⟨_, _, _, _, _, rfl, multiplicative?_eq_some_iff.2 ⟨rfl, sign⟩, left, right⟩
  goesOn_iff := by
    intro t
    cases t with
    | arith op => cases op <;> decide
    | _ => simp [Category.goesOn, multiplicative?]
  goesOn_of_op := by
    intro t op hop
    obtain ⟨rfl, _⟩ := multiplicative?_eq_some_iff.1 hop
    rfl

theorem chained_sum : Chained additive? .product .sum where
  one := .product
  more := by
    intro ts us vs p q op t hop left right
    obtain ⟨rfl, sign⟩ := additive?_eq_some_iff.1 hop
    exact .add sign left right
  inv := by
    intro ts vs r h
    cases h with
    | product part => exact .inl part
    | add sign left right =>
      exact .inr ⟨_, _, _, _, _, rfl, additive?_eq_some_iff.2 ⟨rfl, sign⟩, left, right⟩
  goesOn_iff := by
    intro t
    cases t with
    | arith op => cases op <;> decide
    | _ => simp [Category.goesOn, additive?]
  goesOn_of_op := by
    intro t op hop
    obtain ⟨rfl, rfl | rfl⟩ := additive?_eq_some_iff.1 hop <;> rfl

/-- `Extends op? part p ts r us`: read from the left, operators and parts in `ts` extend the chain
    `p` to the chain `r`, and `us` is left. -/
inductive Extends (op? : Token → Option ArithOp) (part : Category) :
    Phrase → List Token → Phrase → List Token → Prop
  | done {p : Phrase} {ts : List Token} : Extends op? part p ts p ts
  | step {p q r : Phrase} {t : Token} {op : ArithOp} {ts us vs : List Token}
      (sign : op? t = some op) (right : Derives part ts q us)
      (rest : Extends op? part (.arith op p q) us r vs) : Extends op? part p (t :: ts) r vs

namespace Extends

variable {op? : Token → Option ArithOp} {part whole : Category} {p q r : Phrase}
  {ts us vs : List Token}

/-- A chain can be extended at its end. -/
theorem concat {t : Token} {op : ArithOp} (h : Extends op? part p ts r (t :: us))
    (sign : op? t = some op) (right : Derives part us q vs) :
    Extends op? part p ts (.arith op r q) vs := by
  generalize hmid : t :: us = mid at h
  induction h with
  | done => exact hmid ▸ .step sign right .done
  | step sign' right' _ ih => exact .step sign' right' (ih hmid)

/-- A chain is nested as deep as what it extends, at least. -/
theorem within {limit around : Nat} (h : Extends op? part p ts r us)
    (hr : r.Within limit around) : p.Within limit around := by
  induction h with
  | done => exact hr
  | step _ _ _ ih => exact (ih hr).1

/-- Where a chain is extended up to an end, its parts end, too. -/
theorem ends (hc : Chained op? part whole) (h : Extends op? part p ts r us) (hu : whole.Ends us) :
    part.Ends ts := by
  cases h with
  | done => exact hu.of_goesOn fun t ht => (hc.goesOn_iff t).2 (.inl ht)
  | step sign right rest => exact Category.ends_cons.2 (hc.goesOn_of_op sign)

end Extends

namespace Chained

variable {op? : Token → Option ArithOp} {part whole : Category} {ts us : List Token} {p : Phrase}

/-- Where a chain ends, no operator follows. -/
theorem op?_eq_none (hc : Chained op? part whole) (h : whole.Ends us) :
    ∀ t ∈ us.head?, op? t = none := by
  intro t ht
  rw [← Option.not_isSome_iff_eq_none]
  intro hop
  have hon := (hc.goesOn_iff t).2 (.inr hop)
  rw [h t ht] at hon
  cases hon

/-- **Every chain** is its first part, extended. -/
theorem split (hc : Chained op? part whole) (h : Derives whole ts p us) :
    ∃ q mid, Derives part ts q mid ∧ Extends op? part q mid p us := by
  -- By induction on the phrase: the left operand of the last operator is a shorter chain.
  induction hn : sizeOf p using Nat.strongRecOn generalizing p us with
  | ind n ih =>
    rcases hc.inv h with hone | ⟨op, t, l, r, mid, rfl, hop, hleft, hright⟩
    · exact ⟨p, us, hone, .done⟩
    · have hlt : sizeOf l < n := by
        rw [← hn]
        simp only [Phrase.arith.sizeOf_spec]
        omega
      obtain ⟨q, mid', hq, hext⟩ := ih _ hlt hleft rfl
      exact ⟨q, mid', hq, hext.concat hop hright⟩

end Chained

end Payroll.Formula
