import Payroll.Formula.Parser

namespace Payroll.Formula

/-!
# The grammar of formulas

The grammar on its own, without levels to count down and without errors to report:

    comparison := sum (("<" | "<=" | ">" | ">=" | "==" | "!=") sum)?
    sum        := product (("+" | "-") product)*
    product    := operand (("*" | "/") operand)*
    operand    := ("-" | "+") operand | primary
    primary    := NUMBER | NAME | NAME "(" arguments ")" | "(" comparison ")"
    arguments  := comparison ("," comparison)*

* `Phrase` — what the grammar derives, with signs and parentheses as they are written.
* `Derives` — the derivations.
* `Phrase.Means` — the expression that a phrase stands for: names need a value, and calls a function
  that takes so many arguments (`Calls`).
* `Phrase.Within` — how deep the primaries of a phrase are nested.
* `Derives.frame` — a phrase does not depend on what stands behind it.
* `call_eq_ok_iff` — the calls that are read are the ones that have a meaning.
-/

/-- How a formula is written.  The arguments of a call are a phrase of their own, the first one in
    front of the others. -/
inductive Phrase where
  | number (value : Decimal)
  | name (text : String)
  | call (function : String) (args : Phrase)
  | parens (p : Phrase)
  | minus (p : Phrase)
  | plus (p : Phrase)
  | arith (op : ArithOp) (left right : Phrase)
  | compare (op : CompareOp) (left right : Phrase)
  | arguments (first rest : Phrase)
  deriving DecidableEq, Repr

/-- The kinds of phrase. -/
inductive Category where
  | comparison | sum | product | operand | primary | arguments
  deriving DecidableEq, Repr

/-! ### Derivations -/

/-- `Derives c ts p us`: in front of `us`, the tokens `ts` form the phrase `p` of kind `c`.  All of
    them do if `us` is empty.  Chains of operations are derived from the left. -/
inductive Derives : Category → List Token → Phrase → List Token → Prop
  | number {v : Decimal} {us : List Token} : Derives .primary (.number v :: us) (.number v) us
  | name {x : String} {us : List Token} : Derives .primary (.name x :: us) (.name x) us
  | call {f : String} {ts us : List Token} {args : Phrase}
      (inner : Derives .arguments ts args (.rightParen :: us)) :
      Derives .primary (.name f :: .leftParen :: ts) (.call f args) us
  | parens {ts us : List Token} {p : Phrase}
      (inner : Derives .comparison ts p (.rightParen :: us)) :
      Derives .primary (.leftParen :: ts) (.parens p) us
  | primary {ts us : List Token} {p : Phrase} (part : Derives .primary ts p us) :
      Derives .operand ts p us
  | minus {ts us : List Token} {p : Phrase} (inner : Derives .operand ts p us) :
      Derives .operand (.arith .sub :: ts) (.minus p) us
  | plus {ts us : List Token} {p : Phrase} (inner : Derives .operand ts p us) :
      Derives .operand (.arith .add :: ts) (.plus p) us
  | operand {ts us : List Token} {p : Phrase} (part : Derives .operand ts p us) :
      Derives .product ts p us
  | multiply {ts us vs : List Token} {p q : Phrase} {op : ArithOp} (sign : op = .mul ∨ op = .div)
      (left : Derives .product ts p (.arith op :: us)) (right : Derives .operand us q vs) :
      Derives .product ts (.arith op p q) vs
  | product {ts us : List Token} {p : Phrase} (part : Derives .product ts p us) :
      Derives .sum ts p us
  | add {ts us vs : List Token} {p q : Phrase} {op : ArithOp} (sign : op = .add ∨ op = .sub)
      (left : Derives .sum ts p (.arith op :: us)) (right : Derives .product us q vs) :
      Derives .sum ts (.arith op p q) vs
  | sum {ts us : List Token} {p : Phrase} (part : Derives .sum ts p us) :
      Derives .comparison ts p us
  | compare {ts us vs : List Token} {p q : Phrase} {op : CompareOp}
      (left : Derives .sum ts p (.compare op :: us)) (right : Derives .sum us q vs) :
      Derives .comparison ts (.compare op p q) vs
  | argument {ts us : List Token} {p : Phrase} (part : Derives .comparison ts p us) :
      Derives .arguments ts p us
  | arguments {ts us vs : List Token} {p rest : Phrase}
      (first : Derives .comparison ts p (.comma :: us)) (others : Derives .arguments us rest vs) :
      Derives .arguments ts (.arguments p rest) vs

/-- **What stands behind a phrase** does not matter: the tokens in front of it alone make the
    phrase, and they do so in front of any others. -/
theorem Derives.frame {c : Category} {ts us : List Token} {p : Phrase} (h : Derives c ts p us) :
    ∃ ws, ts = ws ++ us ∧ ∀ vs, Derives c (ws ++ vs) p vs := by
  induction h with
  | number => exact ⟨[_], rfl, fun vs => .number⟩
  | name => exact ⟨[_], rfl, fun vs => .name⟩
  | @call f ts us args inner ih =>
    obtain ⟨ws, rfl, ih⟩ := ih
    refine ⟨.name f :: .leftParen :: ws ++ [.rightParen], by simp, fun vs => ?_⟩
    simpa using Derives.call (ih (.rightParen :: vs))
  | @parens ts us p inner ih =>
    obtain ⟨ws, rfl, ih⟩ := ih
    refine ⟨.leftParen :: ws ++ [.rightParen], by simp, fun vs => ?_⟩
    simpa using Derives.parens (ih (.rightParen :: vs))
  | minus inner ih =>
    obtain ⟨ws, rfl, ih⟩ := ih
    exact ⟨.arith .sub :: ws, rfl, fun vs => .minus (ih vs)⟩
  | plus inner ih =>
    obtain ⟨ws, rfl, ih⟩ := ih
    exact ⟨.arith .add :: ws, rfl, fun vs => .plus (ih vs)⟩
  | primary part ih =>
    obtain ⟨ws, hws, ih⟩ := ih
    exact ⟨ws, hws, fun vs => .primary (ih vs)⟩
  | operand part ih =>
    obtain ⟨ws, hws, ih⟩ := ih
    exact ⟨ws, hws, fun vs => .operand (ih vs)⟩
  | product part ih =>
    obtain ⟨ws, hws, ih⟩ := ih
    exact ⟨ws, hws, fun vs => .product (ih vs)⟩
  | sum part ih =>
    obtain ⟨ws, hws, ih⟩ := ih
    exact ⟨ws, hws, fun vs => .sum (ih vs)⟩
  | argument part ih =>
    obtain ⟨ws, hws, ih⟩ := ih
    exact ⟨ws, hws, fun vs => .argument (ih vs)⟩
  | @multiply ts us vs p q op sign left right ihl ihr =>
    -- The left part is read in front of the operator and all that belongs to the right one.
    obtain ⟨ws, rfl, ihl⟩ := ihl
    obtain ⟨ws', rfl, ihr⟩ := ihr
    refine ⟨ws ++ .arith op :: ws', by simp, fun vs => ?_⟩
    simpa using Derives.multiply sign (ihl (.arith op :: (ws' ++ vs))) (ihr vs)
  | @add ts us vs p q op sign left right ihl ihr =>
    obtain ⟨ws, rfl, ihl⟩ := ihl
    obtain ⟨ws', rfl, ihr⟩ := ihr
    refine ⟨ws ++ .arith op :: ws', by simp, fun vs => ?_⟩
    simpa using Derives.add sign (ihl (.arith op :: (ws' ++ vs))) (ihr vs)
  | @compare ts us vs p q op left right ihl ihr =>
    obtain ⟨ws, rfl, ihl⟩ := ihl
    obtain ⟨ws', rfl, ihr⟩ := ihr
    refine ⟨ws ++ .compare op :: ws', by simp, fun vs => ?_⟩
    simpa using Derives.compare (ihl (.compare op :: (ws' ++ vs))) (ihr vs)
  | @arguments ts us vs p rest first others ihl ihr =>
    obtain ⟨ws, rfl, ihl⟩ := ihl
    obtain ⟨ws', rfl, ihr⟩ := ihr
    refine ⟨ws ++ .comma :: ws', by simp, fun vs => ?_⟩
    simpa using Derives.arguments (ihl (.comma :: (ws' ++ vs))) (ihr vs)

/-! ### Meaning -/

/-- Two names that differ in the case of letters only, the second one being in upper case. -/
def SameName (name label : String) : Prop := name.toList.map Char.toUpper = label.toList

/-- The calls that have a meaning, with the expression that they stand for.  The greatest of many
    values is the greater of the first ones and the next. -/
inductive Calls (name : String) : List Expr → Expr → Prop
  | cond {test yes no : Expr} (h : SameName name "IF") :
      Calls name [test, yes, no] (.cond test yes no)
  | max {a b : Expr} {rest : List Expr} (h : SameName name "MAX") :
      Calls name (a :: b :: rest) (rest.foldl .max (.max a b))
  | min {a b : Expr} {rest : List Expr} (h : SameName name "MIN") :
      Calls name (a :: b :: rest) (rest.foldl .min (.min a b))
  | abs {e : Expr} (h : SameName name "ABS") : Calls name [e] (.abs e)
  | round {e : Expr} (h : SameName name "ROUND") : Calls name [e] (.round e)
  | roundTo {e places : Expr} (h : SameName name "ROUND") :
      Calls name [e, places] (.roundTo e places)

/-- The expressions that a phrase stands for: as many as there are arguments, and one otherwise.
    Names stand for their values; parentheses and plus signs leave no trace. -/
inductive Phrase.Means (vars : Variables) : Phrase → List Expr → Prop
  | number {v : Decimal} : Means vars (.number v) [.number v]
  | name {x : String} {v : Decimal} (h : vars.get? x = some v) : Means vars (.name x) [.number v]
  | call {f : String} {args : Phrase} {es : List Expr} {e : Expr} (inner : Means vars args es)
      (h : Calls f es e) : Means vars (.call f args) [e]
  | parens {p : Phrase} {e : Expr} (inner : Means vars p [e]) : Means vars (.parens p) [e]
  | minus {p : Phrase} {e : Expr} (inner : Means vars p [e]) : Means vars (.minus p) [.neg e]
  | plus {p : Phrase} {e : Expr} (inner : Means vars p [e]) : Means vars (.plus p) [e]
  | arith {op : ArithOp} {p q : Phrase} {a b : Expr} (left : Means vars p [a])
      (right : Means vars q [b]) : Means vars (.arith op p q) [.arith op a b]
  | compare {op : CompareOp} {p q : Phrase} {a b : Expr} (left : Means vars p [a])
      (right : Means vars q [b]) : Means vars (.compare op p q) [.compare op a b]
  | arguments {p rest : Phrase} {e : Expr} {es : List Expr} (first : Means vars p [e])
      (others : Means vars rest es) : Means vars (.arguments p rest) (e :: es)

/-- With so many parentheses, calls and signs around the phrase, each of its primaries has fewer
    around it than `limit`. -/
def Phrase.Within (limit : Nat) : Nat → Phrase → Prop
  | around, .number _ => 1 + around ≤ limit
  | around, .name _ => 1 + around ≤ limit
  | around, .call _ args => 1 + around ≤ limit ∧ args.Within limit (around + 1)
  | around, .parens p => 1 + around ≤ limit ∧ p.Within limit (around + 1)
  | around, .minus p => p.Within limit (around + 1)
  | around, .plus p => p.Within limit (around + 1)
  | around, .arith _ p q => p.Within limit around ∧ q.Within limit around
  | around, .compare _ p q => p.Within limit around ∧ q.Within limit around
  | around, .arguments p rest => p.Within limit around ∧ rest.Within limit around

/-! ### Names of functions -/

/-- A name finds the function that it is the name of. -/
theorem ofName?_eq_some_iff {name : String} {f : Builtin} :
    Builtin.ofName? name = some f ↔ SameName name f.label := by
  unfold SameName
  constructor
  · intro h
    have hlabel := List.find?_some h
    exact (eq_of_beq hlabel).symm
  · intro h
    -- No two functions share a name, so that the search ends at this one.
    unfold Builtin.ofName?
    rw [h]
    cases f <;> decide

/-- A call is read exactly when it has a meaning. -/
theorem call_eq_ok_iff {name : String} {args : List Expr} {e : Expr} :
    call name args = .ok e ↔ Calls name args e := by
  constructor
  · intro h
    unfold call at h
    cases hf : Builtin.ofName? name with
    | none =>
      rw [hf] at h
      cases h
    | some f =>
      rw [hf] at h
      have hname := ofName?_eq_some_iff.1 hf
      cases happly : f.apply? args with
      | none =>
        simp only [happly] at h
        cases h
      | some e' =>
        simp only [happly, Except.ok.injEq] at h
        subst h
        -- The functions with the numbers of arguments that suit them.
        unfold Builtin.apply? at happly
        split at happly
        · cases happly
          exact .cond hname
        · cases happly
          exact .max hname
        · cases happly
          exact .min hname
        · cases happly
          exact .abs hname
        · cases happly
          exact .round hname
        · cases happly
          exact .roundTo hname
        · cases happly
  · intro h
    unfold call
    cases h with
    | cond h => rw [ofName?_eq_some_iff (f := .cond).2 h]; rfl
    | max h => rw [ofName?_eq_some_iff (f := .max).2 h]; rfl
    | min h => rw [ofName?_eq_some_iff (f := .min).2 h]; rfl
    | abs h => rw [ofName?_eq_some_iff (f := .abs).2 h]; rfl
    | round h => rw [ofName?_eq_some_iff (f := .round).2 h]; rfl
    | roundTo h => rw [ofName?_eq_some_iff (f := .round).2 h]; rfl

/-! ### Nesting -/

/-- One level more on both sides makes no difference. -/
theorem Phrase.within_succ {limit : Nat} (p : Phrase) {around : Nat} :
    p.Within (limit + 1) (around + 1) ↔ p.Within limit around := by
  induction p generalizing around with
  | number v => simp only [Within]; omega
  | name x => simp only [Within]; omega
  | call f args ih => exact and_congr (by omega) ih
  | parens p ih => exact and_congr (by omega) ih
  | minus p ih => simp only [Within, ih]
  | plus p ih => simp only [Within, ih]
  | arith op p q ihp ihq => simp only [Within, ihp, ihq]
  | compare op p q ihp ihq => simp only [Within, ihp, ihq]
  | arguments p rest ihp ihrest => simp only [Within, ihp, ihrest]

/-- Every phrase has a primary, which a limit of zero does not allow. -/
theorem Phrase.not_within_zero (p : Phrase) {around : Nat} : ¬ p.Within 0 around := by
  induction p generalizing around with
  | number v => simp only [Within]; omega
  | name x => simp only [Within]; omega
  | call f args ih => exact fun h => ih h.2
  | parens p ih => exact fun h => ih h.2
  | minus p ih => exact ih
  | plus p ih => exact ih
  | arith op p q ihp ihq => exact fun h => ihp h.1
  | compare op p q ihp ihq => exact fun h => ihp h.1
  | arguments p rest ihp ihrest => exact fun h => ihp h.1

/-- A greater limit allows no less. -/
theorem Phrase.Within.mono {limit limit' : Nat} (hle : limit ≤ limit') {p : Phrase} {around : Nat}
    (h : p.Within limit around) : p.Within limit' around := by
  induction p generalizing around with
  | number v => exact Nat.le_trans h hle
  | name x => exact Nat.le_trans h hle
  | call f args ih => exact ⟨Nat.le_trans h.1 hle, ih h.2⟩
  | parens p ih => exact ⟨Nat.le_trans h.1 hle, ih h.2⟩
  | minus p ih => exact ih h
  | plus p ih => exact ih h
  | arith op p q ihp ihq => exact ⟨ihp h.1, ihq h.2⟩
  | compare op p q ihp ihq => exact ⟨ihp h.1, ihq h.2⟩
  | arguments p rest ihp ihrest => exact ⟨ihp h.1, ihrest h.2⟩

/-- Every phrase is within some limit. -/
theorem Phrase.exists_within (p : Phrase) (around : Nat) : ∃ limit, p.Within limit around := by
  induction p generalizing around with
  | number v => exact ⟨1 + around, Nat.le_refl _⟩
  | name x => exact ⟨1 + around, Nat.le_refl _⟩
  | call f args ih | parens args ih =>
    obtain ⟨limit, h⟩ := ih (around + 1)
    exact ⟨max (1 + around) limit, Nat.le_max_left .., h.mono (Nat.le_max_right ..)⟩
  | minus p ih => exact ih (around + 1)
  | plus p ih => exact ih (around + 1)
  | arith op p q ihp ihq | compare op p q ihp ihq | arguments p q ihp ihq =>
    obtain ⟨m, hm⟩ := ihp around
    obtain ⟨n, hn⟩ := ihq around
    exact ⟨max m n, hm.mono (Nat.le_max_left ..), hn.mono (Nat.le_max_right ..)⟩

end Payroll.Formula
