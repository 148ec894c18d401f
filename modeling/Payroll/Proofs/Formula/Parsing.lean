import Payroll.Proofs.Formula.Readers
import Payroll.Proofs.Formula.Unambiguity

namespace Payroll.Formula

/-!
# Reading and the grammar

A formula is read exactly when the grammar derives it, its phrase has a meaning and is not nested
too deep; what is read is that meaning.  Both directions go up from operands to arguments, and from
there to operands with one level of nesting more.

* `Sound`, `sound_operand` — what is read is derived, and means what has been read.
* `Complete`, `complete_operand` — what is derived is read, if it goes up to an end.
* `parse_eq_ok_iff_derives` — **tokens are read exactly when they form a phrase**, and they form one
  phrase only.
-/

variable {vars : Variables} {levels : Nat} {item : Reader Expr}

/-! ### What is read is derived -/

/-- All that the reader reads are phrases of the kind, within the levels and of the meaning read. -/
def Sound (vars : Variables) (levels : Nat) (c : Category) (item : Reader Expr) : Prop :=
  ∀ ⦃ts e us⦄, Yields (item ts) e us →
    ∃ p, Derives c ts p us ∧ p.Within levels 0 ∧ p.Means vars [e]

/-- What continues a chain continues its derivation. -/
theorem Sound.chainRest {op? : Token → Option ArithOp} {part whole : Category}
    (h : Sound vars levels part item) (hc : Chained op? part whole) {ts mid us : List Token}
    {left e : Expr} {p : Phrase} (hread : Yields (chainRest op? item left mid) e us)
    (hp : Derives whole ts p mid) (hw : p.Within levels 0) (hm : p.Means vars [left]) :
    ∃ r, Derives whole ts r us ∧ r.Within levels 0 ∧ r.Means vars [e] := by
  -- By induction on the tokens that are left, of which every part takes some.
  induction hn : mid.length using Nat.strongRecOn generalizing mid left p with
  | ind n ih =>
    by_cases hstop : ∀ t ∈ mid.head?, op? t = none
    · obtain ⟨rfl, rfl⟩ := (chainRest_of_stop hstop).1 hread
      exact ⟨p, hp, hw, hm⟩
    · cases mid with
      | nil => exact absurd (by simp) hstop
      | cons t rest =>
        obtain ⟨op, hop⟩ : ∃ op, op? t = some op := by
          rw [← Option.isSome_iff_exists, ← Option.ne_none_iff_isSome]
          simpa using hstop
        obtain ⟨right, mid', hright, hrest⟩ := (chainRest_of_op hop).1 hread
        obtain ⟨q, hq, hwq, hmq⟩ := h hright
        have hlt : mid'.length < n := hn ▸ Nat.lt_succ_of_lt hright.length_lt
        exact ih _ hlt hrest (hc.more hop hp hq) ⟨hw, hwq⟩ (.arith hm hmq) rfl

theorem Sound.chain {op? : Token → Option ArithOp} {part whole : Category}
    (h : Sound vars levels part item) (hc : Chained op? part whole) :
    Sound vars levels whole (chain op? item) := by
  intro ts e us hread
  obtain ⟨left, mid, hleft, hrest⟩ := chain_iff.1 hread
  obtain ⟨p, hp, hw, hm⟩ := h hleft
  exact h.chainRest hc hrest (hc.one hp) hw hm

theorem Sound.sum (h : Sound vars levels .operand item) : Sound vars levels .sum (sum item) :=
  (h.chain chained_product).chain chained_sum

theorem Sound.comparison (h : Sound vars levels .operand item) :
    Sound vars levels .comparison (comparison item) := by
  intro ts e us hread
  obtain ⟨left, mid, hleft, hafter⟩ := comparison_iff.1 hread
  obtain ⟨p, hp, hwp, hmp⟩ := h.sum hleft
  rcases hafter with ⟨rfl, rfl, _⟩ | ⟨op, rest, right, rfl, hright, rfl⟩
  · exact ⟨p, .sum hp, hwp, hmp⟩
  · obtain ⟨q, hq, hwq, hmq⟩ := h.sum hright
    exact ⟨.compare op p q, .compare hp hq, ⟨hwp, hwq⟩, .compare hmp hmq⟩

/-- What is read as arguments is a phrase of that kind. -/
theorem Sound.list (h : Sound vars levels .comparison item) {ts us : List Token} {es : List Expr}
    (hread : Yields (list item ts) es us) :
    ∃ p, Derives .arguments ts p us ∧ p.Within levels 0 ∧ p.Means vars es := by
  induction hn : ts.length using Nat.strongRecOn generalizing ts es with
  | ind n ih =>
    obtain ⟨first, mid, hfirst, hafter⟩ := list_iff.1 hread
    obtain ⟨p, hp, hwp, hmp⟩ := h hfirst
    rcases hafter with ⟨rfl, rfl, _⟩ | ⟨rest, others, rfl, hothers, rfl⟩
    · exact ⟨p, .argument hp, hwp, hmp⟩
    · have hlt : rest.length < n := hn ▸ Nat.lt_of_succ_lt hfirst.length_lt
      obtain ⟨q, hq, hwq, hmq⟩ := ih _ hlt hothers rfl
      exact ⟨.arguments p q, .arguments hp hq, ⟨hwp, hwq⟩, .arguments hmp hmq⟩

theorem Sound.primary (h : Sound vars levels .comparison item) :
    Sound vars (levels + 1) .primary (primary vars item) := by
  have hone : 1 + 0 ≤ levels + 1 := by omega
  intro ts e us hread
  rcases head_of_primary hread with ⟨v, rest, rfl⟩ | ⟨x, rest, rfl⟩ | ⟨rest, rfl⟩
  · obtain ⟨rfl, rfl⟩ := primary_number.1 hread
    exact ⟨.number v, .number, hone, .number⟩
  · by_cases hcall : ∃ inside, rest = .leftParen :: inside
    · obtain ⟨inside, rfl⟩ := hcall
      obtain ⟨args, hargs, hcalls⟩ := primary_call.1 hread
      rw [call_eq_ok_iff] at hcalls
      rcases arguments_iff.1 hargs with ⟨rfl, _⟩ | ⟨_, hlist⟩
      · -- No function does without arguments.
        cases hcalls
      · obtain ⟨p, hp, hwp, hmp⟩ := h.list hlist
        exact ⟨.call x p, .call hp, ⟨hone, p.within_succ.2 hwp⟩, .call hmp hcalls⟩
    · obtain ⟨rfl, v, hv, rfl⟩ := (primary_name fun inside hi => hcall ⟨inside, hi⟩).1 hread
      exact ⟨.name x, .name, hone, .name hv⟩
  · obtain ⟨p, hp, hwp, hmp⟩ := h (primary_parens.1 hread)
    exact ⟨.parens p, .parens hp, ⟨hone, p.within_succ.2 hwp⟩, .parens hmp⟩

/-- **What is read** as an operand is one. -/
theorem sound_operand (vars : Variables) (levels : Nat) :
    Sound vars levels .operand (operand vars levels) := by
  induction levels with
  | zero => exact fun ts e us hread => (not_operand_zero hread).elim
  | succ levels ih =>
    intro ts e us hread
    by_cases hminus : ∃ rest, ts = .arith .sub :: rest
    · obtain ⟨rest, rfl⟩ := hminus
      obtain ⟨a, ha, rfl⟩ := operand_minus.1 hread
      obtain ⟨p, hp, hw, hm⟩ := ih ha
      exact ⟨.minus p, .minus hp, p.within_succ.2 hw, .minus hm⟩
    by_cases hplus : ∃ rest, ts = .arith .add :: rest
    · obtain ⟨rest, rfl⟩ := hplus
      obtain ⟨p, hp, hw, hm⟩ := ih (operand_plus.1 hread)
      exact ⟨.plus p, .plus hp, p.within_succ.2 hw, .plus hm⟩
    have hother : ∀ rest, ts ≠ .arith .sub :: rest ∧ ts ≠ .arith .add :: rest :=
      fun rest => ⟨fun h => hminus ⟨rest, h⟩, fun h => hplus ⟨rest, h⟩⟩
    obtain ⟨p, hp, hw, hm⟩ := ih.comparison.primary ((operand_primary hother).1 hread)
    exact ⟨p, .primary hp, hw, hm⟩

/-! ### What is derived is read -/

/-- The reader reads all phrases of the kind that are within the levels, have a meaning and end
    where they cannot go on. -/
def Complete (vars : Variables) (levels : Nat) (c : Category) (item : Reader Expr) : Prop :=
  ∀ ⦃ts p us e⦄, Derives c ts p us → p.Within levels 0 → p.Means vars [e] → c.Ends us →
    Yields (item ts) e us

/-- What extends a chain is read behind it. -/
theorem Complete.extends {op? : Token → Option ArithOp} {part whole : Category}
    (h : Complete vars levels part item) (hc : Chained op? part whole) {p r : Phrase}
    {ts us : List Token} {e : Expr} (hext : Extends op? part p ts r us) (hw : r.Within levels 0)
    (hm : r.Means vars [e]) (hu : whole.Ends us) :
    ∃ left, p.Means vars [left] ∧ Yields (chainRest op? item left ts) e us := by
  induction hext with
  | done => exact ⟨e, hm, (chainRest_of_stop (hc.op?_eq_none hu)).2 ⟨rfl, rfl⟩⟩
  | step sign right rest ih =>
    obtain ⟨both, hboth, hread⟩ := ih hw hm hu
    cases hboth with
    | arith hleft hright =>
      have hpart := h right (rest.within hw).2 hright (rest.ends hc hu)
      exact ⟨_, hleft, (chainRest_of_op sign).2 ⟨_, _, hpart, hread⟩⟩

theorem Complete.chain {op? : Token → Option ArithOp} {part whole : Category}
    (h : Complete vars levels part item) (hc : Chained op? part whole) :
    Complete vars levels whole (chain op? item) := by
  intro ts p us e hp hw hm hu
  obtain ⟨q, mid, hq, hext⟩ := hc.split hp
  obtain ⟨left, hleft, hrest⟩ := h.extends hc hext hw hm hu
  exact chain_iff.2 ⟨left, mid, h hq (hext.within hw) hleft (hext.ends hc hu), hrest⟩

theorem Complete.sum (h : Complete vars levels .operand item) :
    Complete vars levels .sum (sum item) :=
  (h.chain chained_product).chain chained_sum

theorem Complete.comparison (h : Complete vars levels .operand item) :
    Complete vars levels .comparison (comparison item) := by
  intro ts p us e hp hw hm hu
  cases hp with
  | sum hp =>
    refine comparison_iff.2 ⟨e, us, h.sum hp hw hm hu.sum_of_comparison, .inl ⟨rfl, rfl, ?_⟩⟩
    rintro op rest rfl
    exact absurd hu (Category.not_ends _ rfl)
  | compare left right =>
    cases hm with
    | compare hleft hright =>
      have hread := h.sum left hw.1 hleft (Category.ends_cons.2 rfl)
      exact comparison_iff.2 ⟨_, _, hread,
        .inr ⟨_, _, _, rfl, h.sum right hw.2 hright hu.sum_of_comparison, rfl⟩⟩

/-- Several arguments are a phrase of no other kind. -/
theorem Derives.ne_arguments {c : Category} {ts us : List Token} {p : Phrase}
    (h : Derives c ts p us) (hc : c ≠ .arguments) (first rest : Phrase) :
    p ≠ .arguments first rest := by
  induction h with
  | primary _ ih | operand _ ih | product _ ih | sum _ ih => exact ih (by simp)
  | argument => exact absurd rfl hc
  | arguments => exact absurd rfl hc
  | _ => simp

/-- A phrase means one expression, if it is not made of several arguments. -/
theorem Phrase.Means.eq_singleton {p : Phrase} {es : List Expr} (h : p.Means vars es)
    (hp : ∀ first rest, p ≠ .arguments first rest) : ∃ e, es = [e] := by
  cases h with
  | arguments => exact absurd rfl (hp _ _)
  | _ => exact ⟨_, rfl⟩

theorem Complete.list (h : Complete vars levels .comparison item) {ts us : List Token} {p : Phrase}
    {es : List Expr} (hp : Derives .arguments ts p us) (hw : p.Within levels 0)
    (hm : p.Means vars es) (hu : Category.arguments.Ends us) : Yields (list item ts) es us := by
  generalize hc : Category.arguments = c at hp
  induction hp generalizing es with
  | @argument ts us p part =>
    obtain ⟨e, rfl⟩ := hm.eq_singleton (part.ne_arguments (by simp))
    have hread := h part hw hm hu.comparison_of_arguments
    refine list_iff.2 ⟨e, us, hread, .inl ⟨rfl, rfl, ?_⟩⟩
    rintro rest rfl
    exact absurd hu (Category.not_ends _ rfl)
  | arguments first others _ ih =>
    cases hm with
    | arguments hfirst hothers =>
      have hread := h first hw.1 hfirst (Category.ends_cons.2 rfl)
      exact list_iff.2 ⟨_, _, hread, .inr ⟨_, _, rfl, ih hw.2 hothers hu rfl, rfl⟩⟩
  | _ => cases hc

/-- No phrase begins with a closing parenthesis. -/
theorem Derives.ne_rightParen {c : Category} {ts us : List Token} {p : Phrase}
    (h : Derives c ts p us) (rest : List Token) : ts ≠ .rightParen :: rest := by
  induction h with
  | number | name | call | parens | minus | plus => simp
  | primary _ ih | operand _ ih | product _ ih | sum _ ih | argument _ ih => exact ih
  | multiply _ _ _ ih | add _ _ _ ih | compare _ _ ih | arguments _ _ ih => exact ih

theorem Complete.primary (h : Complete vars levels .comparison item) :
    Complete vars (levels + 1) .primary (primary vars item) := by
  intro ts p us e hp hw hm hu
  cases hp with
  | number =>
    cases hm with
    | number => exact primary_number.2 ⟨rfl, rfl⟩
  | name =>
    cases hm with
    | name hv =>
      refine (primary_name ?_).2 ⟨rfl, _, hv, rfl⟩
      rintro rest rfl
      exact absurd hu (Category.not_ends _ rfl)
  | @call f ts us args inner =>
    cases hm with
    | call hargs hcalls =>
      have hlist := h.list inner (args.within_succ.1 hw.2) hargs (Category.ends_rightParen _ _)
      have hread := arguments_iff.2 (.inr ⟨inner.ne_rightParen, hlist⟩)
      exact primary_call.2 ⟨_, hread, call_eq_ok_iff.2 hcalls⟩
  | @parens ts us p inner =>
    cases hm with
    | parens hinner =>
      exact primary_parens.2
        (h inner (p.within_succ.1 hw.2) hinner (Category.ends_rightParen _ _))

/-- A primary does not begin with a sign. -/
theorem Derives.primary_ne_arith {ts us : List Token} {p : Phrase} (h : Derives .primary ts p us)
    (op : ArithOp) (rest : List Token) : ts ≠ .arith op :: rest := by
  cases h <;> simp

/-- **What is an operand** is read as one. -/
theorem complete_operand (vars : Variables) (levels : Nat) :
    Complete vars levels .operand (operand vars levels) := by
  induction levels with
  | zero => exact fun ts p us e _ hw => absurd hw p.not_within_zero
  | succ levels ih =>
    intro ts p us e hp hw hm hu
    cases hp with
    | primary hp =>
      have hsign := fun rest =>
        And.intro (hp.primary_ne_arith .sub rest) (hp.primary_ne_arith .add rest)
      exact (operand_primary hsign).2 (ih.comparison.primary hp hw hm hu.primary_of_operand)
    | @minus ts us p inner =>
      cases hm with
      | minus hinner =>
        exact operand_minus.2 ⟨_, ih inner (p.within_succ.1 hw) hinner hu, rfl⟩
    | @plus ts us p inner =>
      cases hm with
      | plus hinner => exact operand_plus.2 (ih inner (p.within_succ.1 hw) hinner hu)

/-! ### Reading formulas -/

/-- A phrase means one thing. -/
theorem Phrase.Means.unique {p : Phrase} {es fs : List Expr} (he : p.Means vars es)
    (hf : p.Means vars fs) : es = fs := by
  induction he generalizing fs with
  | number =>
    cases hf with
    | number => rfl
  | name hv =>
    cases hf with
    | name hv' =>
      obtain rfl := Option.some.inj (hv.symm.trans hv')
      rfl
  | call _ hcalls ih =>
    cases hf with
    | call inner hcalls' =>
      obtain rfl := ih inner
      have hsame := (call_eq_ok_iff.2 hcalls).symm.trans (call_eq_ok_iff.2 hcalls')
      rw [Except.ok.inj hsame]
  | parens _ ih =>
    cases hf with
    | parens inner => exact ih inner
  | minus _ ih =>
    cases hf with
    | minus inner =>
      cases ih inner
      rfl
  | plus _ ih =>
    cases hf with
    | plus inner => exact ih inner
  | arith _ _ ihl ihr =>
    cases hf with
    | arith left right =>
      cases ihl left
      cases ihr right
      rfl
  | compare _ _ ihl ihr =>
    cases hf with
    | compare left right =>
      cases ihl left
      cases ihr right
      rfl
  | arguments _ _ ihfirst ihothers =>
    cases hf with
    | arguments first others =>
      cases ihfirst first
      cases ihothers others
      rfl

/-- **Tokens are read exactly when they form a phrase** that has a meaning and whose primaries are
    nested within 64 levels, and the meaning is what is read.  They form one phrase only, with one
    meaning. -/
theorem parse_eq_ok_iff_derives (vars : Variables) (ts : List Token) :
    (∀ e, parse vars ts = .ok e ↔
      ∃ p, Derives .comparison ts p [] ∧ p.Within 64 0 ∧ p.Means vars [e]) ∧
    ∀ p q, Derives .comparison ts p [] → Derives .comparison ts q [] →
      p = q ∧ ∀ e f, p.Means vars [e] → q.Means vars [f] → e = f := by
  refine ⟨fun e => ?_, fun p q hp hq => ?_⟩
  · rw [parse_iff]
    constructor
    · intro hread
      exact (sound_operand vars maxNesting).comparison hread
    · rintro ⟨p, hp, hw, hm⟩
      exact (complete_operand vars maxNesting).comparison hp hw hm (Category.ends_nil _)
  · obtain rfl := hp.unique hq
    refine ⟨rfl, fun e f he hf => ?_⟩
    exact (List.cons.inj (he.unique hf)).1

/-- The tokens of `100 - 1 - 1` form a difference on the left, which is what is read, and none
    on the right. -/
theorem parse_differences :
    let hundred : Token := .number .hundred
    let one : Token := .number .one
    let tokens := [hundred, .arith .sub, one, .arith .sub, one]
    parse .empty tokens = .ok (.arith .sub (.arith .sub (.number .hundred) (.number .one))
      (.number .one)) ∧
    ¬ Derives .comparison tokens (.arith .sub (.number .hundred)
      (.arith .sub (.number .one) (.number .one))) [] := by
  intro hundred one tokens
  have hone : ∀ v us, Derives .product (.number v :: us) (.number v) us :=
    fun v us => .operand (.primary .number)
  have hleft : Derives .comparison tokens (.arith .sub
      (.arith .sub (.number .hundred) (.number .one)) (.number .one)) [] :=
    .sum (.add (.inr rfl) (.add (.inr rfl) (.product (hone _ _)) (hone _ _)) (hone _ _))
  refine ⟨((parse_eq_ok_iff_derives .empty tokens).1 _).2 ⟨_, hleft, ?_, ?_⟩, fun hright => ?_⟩
  · simp [Phrase.Within]
  · exact .arith (.arith .number .number) .number
  · exact absurd ((parse_eq_ok_iff_derives .empty tokens).2 _ _ hleft hright).1 (by decide)

end Payroll.Formula
