import Payroll.Proofs.Formula.Chain

namespace Payroll.Formula

/-!
# The grammar is unambiguous

Tokens form one phrase only.  The proof goes up from operands to arguments, and from there to
operands that are nested one level deeper.

* `Unique` — with a bound on nesting, tokens form one phrase of a kind, if it goes up to an end.
* `unique_operand` — this is so for operands with every bound.
* `Derives.unique` — hence **no tokens have two derivations**.
-/

/-- Phrases of the kind that are nested no deeper than `limit` and end where they cannot go on are
    determined by their tokens. -/
def Unique (limit : Nat) (c : Category) : Prop :=
  ∀ ⦃ts p q us vs⦄, Derives c ts p us → Derives c ts q vs → p.Within limit 0 → q.Within limit 0 →
    c.Ends us → c.Ends vs → p = q ∧ us = vs

variable {limit : Nat}

/-- Chains are read from the left in one way. -/
theorem Extends.unique {op? : Token → Option ArithOp} {part whole : Category}
    (hc : Chained op? part whole) (hpart : Unique limit part) {p r r' : Phrase}
    {ts us us' : List Token} (h : Extends op? part p ts r us) (h' : Extends op? part p ts r' us')
    (hr : r.Within limit 0) (hr' : r'.Within limit 0) (hu : whole.Ends us)
    (hu' : whole.Ends us') : r = r' ∧ us = us' := by
  induction h with
  | done =>
    cases h' with
    | done => exact ⟨rfl, rfl⟩
    | step sign right rest =>
      -- The second chain would go on where the first one ends.
      have hnone := hc.op?_eq_none hu _ rfl
      rw [sign] at hnone
      cases hnone
  | step sign right rest ih =>
    cases h' with
    | done =>
      have hnone := hc.op?_eq_none hu' _ rfl
      rw [sign] at hnone
      cases hnone
    | step sign' right' rest' =>
      obtain rfl := Option.some.inj (sign.symm.trans sign')
      -- Both go on with the same part, and then as they do by induction.
      obtain ⟨rfl, rfl⟩ := hpart right right' (rest.within hr).2 (rest'.within hr').2
        (rest.ends hc hu) (rest'.ends hc hu')
      exact ih rest' hr hu

/-- If parts are determined, chains of them are. -/
theorem Unique.chain {op? : Token → Option ArithOp} {part whole : Category}
    (hpart : Unique limit part) (hc : Chained op? part whole) : Unique limit whole := by
  intro ts p q us vs hp hq hwp hwq hu hv
  obtain ⟨p₀, mid, hp₀, hextp⟩ := hc.split hp
  obtain ⟨q₀, mid', hq₀, hextq⟩ := hc.split hq
  obtain ⟨rfl, rfl⟩ := hpart hp₀ hq₀ (hextp.within hwp) (hextq.within hwq) (hextp.ends hc hu)
    (hextq.ends hc hv)
  exact hextp.unique hc hpart hextq hwp hwq hu hv

theorem Unique.comparison (hsum : Unique limit .sum) : Unique limit .comparison := by
  intro ts p q us vs hp hq hwp hwq hu hv
  -- A sum ends where the operator stands, so that both phrases begin with the same sum.
  have hop : ∀ op rest, Category.sum.Ends (.compare op :: rest) :=
    fun op rest => Category.ends_cons.2 rfl
  cases hp with
  | sum hp =>
    cases hq with
    | sum hq => exact hsum hp hq hwp hwq hu.sum_of_comparison hv.sum_of_comparison
    | compare left right =>
      obtain ⟨rfl, rfl⟩ := hsum hp left hwp hwq.1 hu.sum_of_comparison (hop _ _)
      exact absurd hu (Category.not_ends _ rfl)
  | compare left right =>
    cases hq with
    | sum hq =>
      obtain ⟨rfl, rfl⟩ := hsum left hq hwp.1 hwq (hop _ _) hv.sum_of_comparison
      exact absurd hv (Category.not_ends _ rfl)
    | compare left' right' =>
      obtain ⟨rfl, hrest⟩ := hsum left left' hwp.1 hwq.1 (hop _ _) (hop _ _)
      cases hrest
      obtain ⟨rfl, rfl⟩ := hsum right right' hwp.2 hwq.2 hu.sum_of_comparison hv.sum_of_comparison
      exact ⟨rfl, rfl⟩

theorem Unique.arguments (hcomparison : Unique limit .comparison) : Unique limit .arguments := by
  intro ts p q us vs hp hq hwp hwq hu hv
  have hcomma : ∀ rest, Category.comparison.Ends (.comma :: rest) :=
    fun rest => Category.ends_cons.2 rfl
  generalize hc : Category.arguments = c at hp
  induction hp generalizing q with
  | argument hp =>
    cases hq with
    | argument hq =>
      exact hcomparison hp hq hwp hwq hu.comparison_of_arguments hv.comparison_of_arguments
    | arguments first others =>
      -- A list goes on as long as there are commas.
      obtain ⟨rfl, rfl⟩ := hcomparison hp first hwp hwq.1 hu.comparison_of_arguments (hcomma _)
      exact absurd hu (Category.not_ends _ rfl)
  | arguments first others _ ih =>
    cases hq with
    | argument hq =>
      obtain ⟨rfl, rfl⟩ := hcomparison first hq hwp.1 hwq (hcomma _) hv.comparison_of_arguments
      exact absurd hv (Category.not_ends _ rfl)
    | arguments first' others' =>
      obtain ⟨rfl, hrest⟩ := hcomparison first first' hwp.1 hwq.1 (hcomma _) (hcomma _)
      cases hrest
      obtain ⟨rfl, rfl⟩ := ih others' hwp.2 hwq.2 hu rfl
      exact ⟨rfl, rfl⟩
  | _ => cases hc

/-- A primary is determined if what is inside of it is. -/
theorem Unique.primary (hcomparison : Unique limit .comparison) : Unique (limit + 1) .primary := by
  intro ts p q us vs hp hq hwp hwq hu hv
  cases hp with
  | number =>
    cases hq with
    | number => exact ⟨rfl, rfl⟩
  | name =>
    cases hq with
    | name => exact ⟨rfl, rfl⟩
    -- Behind a variable there is no parenthesis.
    | call inner => exact absurd hu (Category.not_ends _ rfl)
  | call inner =>
    cases hq with
    | name => exact absurd hv (Category.not_ends _ rfl)
    | call inner' =>
      obtain ⟨rfl, hrest⟩ := hcomparison.arguments inner inner' ((Phrase.within_succ _).1 hwp.2)
        ((Phrase.within_succ _).1 hwq.2) (Category.ends_rightParen _ _)
        (Category.ends_rightParen _ _)
      cases hrest
      exact ⟨rfl, rfl⟩
  | parens inner =>
    cases hq with
    | parens inner' =>
      obtain ⟨rfl, hrest⟩ := hcomparison inner inner' ((Phrase.within_succ _).1 hwp.2)
        ((Phrase.within_succ _).1 hwq.2) (Category.ends_rightParen _ _)
        (Category.ends_rightParen _ _)
      cases hrest
      exact ⟨rfl, rfl⟩

theorem Unique.operand (h : Unique limit .operand) : Unique (limit + 1) .operand := by
  intro ts p q us vs hp hq hwp hwq hu hv
  have hprimary : Unique (limit + 1) .primary :=
    ((h.chain chained_product).chain chained_sum).comparison.primary
  cases hp with
  | primary hp =>
    cases hq with
    | primary hq =>
      exact hprimary hp hq hwp hwq hu.primary_of_operand hv.primary_of_operand
    | minus inner => cases hp
    | plus inner => cases hp
  | minus inner =>
    cases hq with
    | primary hq => cases hq
    | minus inner' =>
      obtain ⟨rfl, rfl⟩ := h inner inner' ((Phrase.within_succ _).1 hwp)
        ((Phrase.within_succ _).1 hwq) hu hv
      exact ⟨rfl, rfl⟩
  | plus inner =>
    cases hq with
    | primary hq => cases hq
    | plus inner' =>
      obtain ⟨rfl, rfl⟩ := h inner inner' ((Phrase.within_succ _).1 hwp)
        ((Phrase.within_succ _).1 hwq) hu hv
      exact ⟨rfl, rfl⟩

/-- Operands are determined, however deep they are nested. -/
theorem unique_operand (limit : Nat) : Unique limit .operand := by
  induction limit with
  | zero => exact fun ts p q us vs hp hq hwp => absurd hwp p.not_within_zero
  | succ limit ih => exact ih.operand

/-- **No tokens have two derivations** of different phrases. -/
theorem Derives.unique {ts : List Token} {p q : Phrase} (hp : Derives .comparison ts p [])
    (hq : Derives .comparison ts q []) : p = q := by
  obtain ⟨m, hm⟩ := p.exists_within 0
  obtain ⟨n, hn⟩ := q.exists_within 0
  have hunique : Unique (max m n) .comparison :=
    (((unique_operand _).chain chained_product).chain chained_sum).comparison
  exact (hunique hp hq (hm.mono (Nat.le_max_left ..)) (hn.mono (Nat.le_max_right ..))
    (Category.ends_nil _) (Category.ends_nil _)).1

end Payroll.Formula
