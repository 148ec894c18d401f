import Payroll.Formula.Parser
import Payroll.Proofs.Except

namespace Payroll.Formula

/-!
# What readers read

For each reader, what it takes to read something, said through the readers of its parts.  The proofs
about the grammar rest on these statements and look into no reader.

* `Yields` — a reader comes out well, with what it has read and with the tokens behind it.
* `chainRest_of_stop`, `chainRest_of_op`, `chain_iff` — chains of operations.
* `comparison_iff`, `list_iff`, `arguments_iff` — comparisons and lists.
* `primary_number` and the like, `operand_minus` and the like — primaries and operands, by the
  token in front.
* `parse_iff` — all tokens are read.
-/

/-- The reader has read `a`, and `us` is left. -/
def Yields {α : Type} {P : α × List Token → Prop}
    (x : Except FormulaError { r : α × List Token // P r }) (a : α) (us : List Token) : Prop :=
  ∃ h, x = .ok ⟨(a, us), h⟩

section

variable {α β : Type} {P : α × List Token → Prop} {Q : β × List Token → Prop}

theorem yields_ok_iff {r : { r : α × List Token // P r }} {a : α} {us : List Token} :
    Yields (.ok r) a us ↔ r.1 = (a, us) := by
  obtain ⟨r, h⟩ := r
  constructor
  · rintro ⟨_, heq⟩
    cases heq
    rfl
  · rintro rfl
    exact ⟨h, rfl⟩

theorem yields_pure_iff {r : { r : α × List Token // P r }} {a : α} {us : List Token} :
    Yields (pure r) a us ↔ r.1 = (a, us) :=
  yields_ok_iff

theorem not_yields_error {e : FormulaError} {a : α} {us : List Token} :
    ¬ Yields (.error e : Except FormulaError { r : α × List Token // P r }) a us := by
  rintro ⟨_, h⟩
  cases h

/-- A reader that goes on where another one has stopped. -/
theorem yields_bind_iff {x : Except FormulaError { r : α × List Token // P r }}
    {f : { r : α × List Token // P r } → Except FormulaError { r : β × List Token // Q r }}
    {b : β} {vs : List Token} {R : α → List Token → Prop}
    (hf : ∀ a us h, Yields (f ⟨(a, us), h⟩) b vs ↔ R a us) :
    Yields (x >>= f) b vs ↔ ∃ a us, Yields x a us ∧ R a us := by
  unfold Yields
  constructor
  · rintro ⟨hv, hbind⟩
    obtain ⟨⟨⟨a, us⟩, h⟩, hx, hf'⟩ := bind_eq_ok_iff.1 hbind
    exact ⟨a, us, ⟨h, hx⟩, (hf a us h).1 ⟨hv, hf'⟩⟩
  · rintro ⟨a, us, ⟨h, hx⟩, hR⟩
    obtain ⟨hv, hf'⟩ := (hf a us h).2 hR
    exact ⟨hv, bind_eq_ok_iff.2 ⟨⟨(a, us), h⟩, hx, hf'⟩⟩

/-- A reader that goes on with what needs no tokens. -/
theorem yields_lift_iff {γ : Type} {x : Except FormulaError γ}
    {f : γ → Except FormulaError { r : β × List Token // Q r }} {b : β} {vs : List Token} :
    Yields (x >>= f) b vs ↔ ∃ c, x = .ok c ∧ Yields (f c) b vs := by
  unfold Yields
  simp only [bind_eq_ok_iff]
  constructor
  · rintro ⟨h, c, hx, hf⟩
    exact ⟨c, hx, h, hf⟩
  · rintro ⟨c, hx, h, hf⟩
    exact ⟨h, c, hx, hf⟩

/-- A reader whose result is put into a larger one. -/
theorem yields_bind_map_iff {x : Except FormulaError { r : α × List Token // P r }}
    {f : { r : α × List Token // P r } → Except FormulaError { r : β × List Token // Q r }}
    {b : β} {vs : List Token} (g : α → β)
    (hf : ∀ a us h, ∃ h', f ⟨(a, us), h⟩ = .ok ⟨(g a, us), h'⟩) :
    Yields (x >>= f) b vs ↔ ∃ a, Yields x a vs ∧ b = g a := by
  have hpass : ∀ a us h, Yields (f ⟨(a, us), h⟩) b vs ↔ us = vs ∧ b = g a := by
    intro a us h
    obtain ⟨h', hf⟩ := hf a us h
    rw [hf, yields_ok_iff, Prod.mk.injEq, and_comm, eq_comm (a := g a)]
  rw [yields_bind_iff hpass]
  constructor
  · rintro ⟨a, us, hx, rfl, hb⟩
    exact ⟨a, hx, hb⟩
  · rintro ⟨a, hx, hb⟩
    exact ⟨a, vs, hx, rfl, hb⟩

/-- A reader whose result is passed on as it is. -/
theorem yields_bind_pass_iff {Q : α × List Token → Prop}
    {x : Except FormulaError { r : α × List Token // P r }}
    {f : { r : α × List Token // P r } → Except FormulaError { r : α × List Token // Q r }}
    {a : α} {us : List Token} (hf : ∀ a us h, ∃ h', f ⟨(a, us), h⟩ = .ok ⟨(a, us), h'⟩) :
    Yields (x >>= f) a us ↔ Yields x a us :=
  (yields_bind_map_iff (fun a => a) hf).trans (by simp)

end

/-- What is left is shorter than what was there. -/
theorem Yields.length_lt {α : Type} {item : Reader α} {ts us : List Token} {a : α}
    (h : Yields (item ts) a us) : us.length < ts.length :=
  h.1

/-! ### Chains of operations -/

section

variable {op? : Token → Option ArithOp} {item : Reader Expr} {left e : Expr} {ts us : List Token}

/-- A chain that nothing continues ends with its left part. -/
theorem chainRest_of_stop (h : ∀ t ∈ ts.head?, op? t = none) :
    Yields (chainRest op? item left ts) e us ↔ e = left ∧ us = ts := by
  cases ts with
  | nil =>
    rw [chainRest, yields_ok_iff, Prod.mk.injEq, eq_comm (a := left), eq_comm (a := [])]
  | cons t rest =>
    rw [chainRest, h t rfl, yields_ok_iff, Prod.mk.injEq, eq_comm (a := left), eq_comm (b := us)]

/-- A chain goes on with an operator and an item. -/
theorem chainRest_of_op {t : Token} {op : ArithOp} (h : op? t = some op) :
    Yields (chainRest op? item left (t :: ts)) e us ↔
      ∃ right mid, Yields (item ts) right mid ∧
        Yields (chainRest op? item (.arith op left right) mid) e us := by
  rw [chainRest, h]
  exact yields_bind_iff fun right mid hmid => yields_bind_pass_iff fun _ _ _ => ⟨_, rfl⟩

/-- A chain is an item and what continues it. -/
theorem chain_iff :
    Yields (chain op? item ts) e us ↔
      ∃ left mid, Yields (item ts) left mid ∧ Yields (chainRest op? item left mid) e us :=
  yields_bind_iff fun _ _ _ => yields_bind_pass_iff fun _ _ _ => ⟨_, rfl⟩

end

/-! ### Comparisons and lists -/

section

variable {item : Reader Expr} {e : Expr} {es : List Expr} {ts us : List Token}

/-- A comparison is a sum, or two sums with an operator between them. -/
theorem comparison_iff :
    Yields (comparison item ts) e us ↔
      ∃ left mid, Yields (sum item ts) left mid ∧
        ((e = left ∧ us = mid ∧ ∀ op rest, mid ≠ .compare op :: rest) ∨
          ∃ op rest right, mid = .compare op :: rest ∧ Yields (sum item rest) right us ∧
            e = .compare op left right) := by
  refine yields_bind_iff fun left mid hmid => ?_
  dsimp only
  split
  · rename_i op rest hrest
    rw [yields_bind_map_iff (fun right => .compare op left right) fun _ _ _ => ⟨_, rfl⟩]
    simp
  · rename_i hother
    have hne : ∀ op rest, mid ≠ .compare op :: rest :=
      fun op rest h => hother op rest (h ▸ hmid) h (by subst h; rfl)
    rw [yields_pure_iff, Prod.mk.injEq]
    simp [hne, eq_comm]

/-- A list is one item, or an item and a list with a comma between them. -/
theorem list_iff :
    Yields (list item ts) es us ↔
      ∃ first mid, Yields (item ts) first mid ∧
        ((es = [first] ∧ us = mid ∧ ∀ rest, mid ≠ .comma :: rest) ∨
          ∃ rest others, mid = .comma :: rest ∧ Yields (list item rest) others us ∧
            es = first :: others) := by
  rw [list]
  refine yields_bind_iff fun first mid hmid => ?_
  dsimp only
  split
  · rename_i rest hrest
    rw [yields_bind_map_iff (fun others => first :: others) fun _ _ _ => ⟨_, rfl⟩]
    simp
  · rename_i hother
    have hne : ∀ rest, mid ≠ .comma :: rest :=
      fun rest h => hother rest (h ▸ hmid) h (by subst h; rfl)
    rw [yields_pure_iff, Prod.mk.injEq]
    simp [hne, eq_comm]

/-- What has been read is closed by a parenthesis. -/
theorem close_iff {α : Type} {a b : α} :
    Yields (close a ts) b us ↔ b = a ∧ ts = .rightParen :: us := by
  unfold close
  split
  · rw [yields_ok_iff, Prod.mk.injEq]
    simp [eq_comm]
  · rename_i t rest hother
    constructor
    · exact fun h => (not_yields_error h).elim
    · rintro ⟨_, heq⟩
      cases heq
      exact (hother rfl).elim
  · simp [not_yields_error]

/-- Arguments are a list with a parenthesis behind it, or the parenthesis alone. -/
theorem arguments_iff :
    Yields (arguments item ts) es us ↔
      (es = [] ∧ ts = .rightParen :: us) ∨
        ((∀ rest, ts ≠ .rightParen :: rest) ∧ Yields (list item ts) es (.rightParen :: us)) := by
  unfold arguments
  split
  · rw [yields_ok_iff, Prod.mk.injEq]
    simp [eq_comm]
  · rename_i hother
    have hne : ∀ rest, ts ≠ .rightParen :: rest := fun rest h => hother rest h
    refine (yields_bind_iff (R := fun args mid => es = args ∧ mid = .rightParen :: us)
      fun args mid hmid => ?_).trans ?_
    · refine Iff.trans (yields_bind_pass_iff ?_) close_iff
      exact fun _ _ _ => ⟨_, rfl⟩
    · simp [hne]

end

/-! ### Primaries and operands -/

section

variable {vars : Variables} {expr : Reader Expr} {e : Expr} {ts us : List Token}

theorem primary_number {v : Decimal} :
    Yields (primary vars expr (.number v :: ts)) e us ↔ e = .number v ∧ us = ts := by
  rw [primary, yields_ok_iff, Prod.mk.injEq, eq_comm (b := e), eq_comm (b := us)]

theorem primary_parens :
    Yields (primary vars expr (.leftParen :: ts)) e us ↔
      Yields (expr ts) e (.rightParen :: us) := by
  rw [primary]
  refine (yields_bind_iff (R := fun a mid => e = a ∧ mid = .rightParen :: us)
    fun a mid hmid => ?_).trans ?_
  · refine Iff.trans (yields_bind_pass_iff ?_) close_iff
    exact fun _ _ _ => ⟨_, rfl⟩
  · simp

theorem primary_call {f : String} :
    Yields (primary vars expr (.name f :: .leftParen :: ts)) e us ↔
      ∃ args, Yields (arguments expr ts) args us ∧ call f args = .ok e := by
  rw [primary]
  refine (yields_bind_iff (R := fun args mid => call f args = .ok e ∧ mid = us)
    fun args mid hmid => ?_).trans ?_
  · refine yields_lift_iff.trans ?_
    simp [yields_pure_iff]
  · simp

theorem primary_name {x : String} (h : ∀ rest, ts ≠ .leftParen :: rest) :
    Yields (primary vars expr (.name x :: ts)) e us ↔
      us = ts ∧ ∃ v, vars.get? x = some v ∧ e = .number v := by
  rw [primary]
  · refine yields_lift_iff.trans ?_
    unfold lookUp
    cases vars.get? x with
    | none => simp
    | some v => simp [yields_pure_iff, eq_comm, and_comm]
  · exact fun rest hts => h rest hts

/-- A primary begins with a number, a name or a parenthesis. -/
theorem head_of_primary (h : Yields (primary vars expr ts) e us) :
    (∃ v rest, ts = .number v :: rest) ∨ (∃ x rest, ts = .name x :: rest) ∨
      ∃ rest, ts = .leftParen :: rest := by
  cases ts with
  | nil =>
    rw [primary] at h
    exact (not_yields_error h).elim
  | cons t rest =>
    cases t with
    | number v => exact .inl ⟨v, rest, rfl⟩
    | name x => exact .inr (.inl ⟨x, rest, rfl⟩)
    | leftParen => exact .inr (.inr ⟨rest, rfl⟩)
    | arith op | compare op | rightParen | comma =>
      rw [primary] at h
      · exact (not_yields_error h).elim
      all_goals simp

/-- No operand is read without a level of nesting. -/
theorem not_operand_zero : ¬ Yields (operand vars 0 ts) e us := not_yields_error

variable {levels : Nat}

theorem operand_minus :
    Yields (operand vars (levels + 1) (.arith .sub :: ts)) e us ↔
      ∃ a, Yields (operand vars levels ts) a us ∧ e = .neg a := by
  rw [operand]
  exact yields_bind_map_iff Expr.neg fun _ _ _ => ⟨_, rfl⟩

theorem operand_plus :
    Yields (operand vars (levels + 1) (.arith .add :: ts)) e us ↔
      Yields (operand vars levels ts) e us := by
  rw [operand]
  exact yields_bind_pass_iff fun _ _ _ => ⟨_, rfl⟩

theorem operand_primary (h : ∀ rest, ts ≠ .arith .sub :: rest ∧ ts ≠ .arith .add :: rest) :
    Yields (operand vars (levels + 1) ts) e us ↔
      Yields (primary vars (comparison (operand vars levels)) ts) e us := by
  rw [operand]
  dsimp only
  split
  · rename_i rest
    exact absurd rfl (h rest).1
  · rename_i rest
    exact absurd rfl (h rest).2
  · rfl

end

/-- All tokens are read. -/
theorem parse_iff {vars : Variables} {ts : List Token} {e : Expr} :
    parse vars ts = .ok e ↔ Yields (comparison (operand vars maxNesting) ts) e [] := by
  unfold parse
  rw [bind_eq_ok_iff]
  constructor
  · rintro ⟨⟨⟨a, us⟩, h⟩, hread, hrest⟩
    cases us with
    | nil =>
      cases hrest
      exact ⟨h, hread⟩
    | cons t us => cases hrest
  · rintro ⟨h, hread⟩
    exact ⟨_, hread, rfl⟩

end Payroll.Formula
