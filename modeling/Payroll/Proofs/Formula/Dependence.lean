import Payroll.Proofs.Formula.Names

namespace Payroll.Formula

/-!
# What a formula depends on

A formula sees its variables through the names that it reads.  Names are compared whole: what a
shorter or a longer name stands for, or one in other letters, does not matter, and neither does a
variable that has the name of a function.

* `reads_iff` — the names that a text reads are those of its tokens without a
  parenthesis behind them.
* `AgreeOn` — two sets of variables that give the names among some tokens the same values, or none.
* `Alike` — readers that cannot tell such sets of variables apart, in what they read and in their
  errors; `Alike.chain`, `Alike.comparison`, `Alike.primary`, so do those that are built from them.
* `parse_congr` — hence the tokens are read alike.
* `evaluate?_depends_on_reads` — **a formula depends on the names that it reads, and on nothing
  else**.
-/

variable {vars vars' : Variables} {ts us : List Token}

/-! ### Names among tokens -/

/-- A name without a parenthesis behind it stands somewhere among the tokens. -/
theorem exists_of_mem_variableNames {x : String} (h : x ∈ variableNames ts) :
    ∃ before after, ts = before ++ .name x :: after ∧ ∀ rest, after ≠ .leftParen :: rest := by
  fun_induction variableNames ts with
  | case1 => cases h
  | case2 f rest ih =>
    obtain ⟨before, after, rfl, hafter⟩ := ih h
    exact ⟨.name f :: .leftParen :: before, after, rfl, hafter⟩
  | case3 y rest hrest ih =>
    rcases List.mem_cons.1 h with rfl | hlater
    · exact ⟨[], rest, rfl, hrest⟩
    · obtain ⟨before, after, rfl, hafter⟩ := ih hlater
      exact ⟨.name y :: before, after, rfl, hafter⟩
  | case4 t rest _ _ ih =>
    obtain ⟨before, after, rfl, hafter⟩ := ih h
    exact ⟨t :: before, after, rfl, hafter⟩

/-- **The names that a text reads** are those of its tokens without a parenthesis behind them. -/
theorem reads_iff {text x : String} :
    Reads text x ↔ ∃ ts, tokens text = .ok ts ∧ x ∈ variableNames ts := by
  constructor
  · rintro ⟨before, after, htokens, hafter⟩
    exact ⟨_, htokens, mem_variableNames_append hafter before⟩
  · rintro ⟨ts, htokens, hx⟩
    obtain ⟨before, after, rfl, hafter⟩ := exists_of_mem_variableNames hx
    exact ⟨before, after, htokens, hafter⟩

/-- Tokens further back read no other names. -/
theorem variableNames_subset_cons (t : Token) (ts : List Token) :
    variableNames ts ⊆ variableNames (t :: ts) := by
  intro x hx
  obtain ⟨before, after, rfl, hafter⟩ := exists_of_mem_variableNames hx
  exact mem_variableNames_append hafter (t :: before)

/-- The same value for every name among the tokens, or none. -/
def AgreeOn (ts : List Token) (vars vars' : Variables) : Prop :=
  ∀ x ∈ variableNames ts, vars.get? x = vars'.get? x

theorem AgreeOn.of_cons {t : Token} (h : AgreeOn (t :: ts) vars vars') : AgreeOn ts vars vars' :=
  fun x hx => h x (variableNames_subset_cons t ts hx)

theorem AgreeOn.suffix (h : AgreeOn ts vars vars') (hus : us <:+ ts) : AgreeOn us vars vars' := by
  obtain ⟨before, rfl⟩ := hus
  induction before with
  | nil => exact h
  | cons t before ih => exact ih h.of_cons

/-! ### Readers -/

/-- The readers read the same, or fail for the same reason, where the variables agree. -/
def Alike (vars vars' : Variables) (item item' : Reader Expr) : Prop :=
  ∀ ts, AgreeOn ts vars vars' → item ts = item' ts

section

variable {item item' : Reader Expr} {levels : Nat}

/-- What is left are the last ones of the tokens. -/
theorem Sound.suffix {c : Category} (h : Sound vars levels c item) {e : Expr}
    (hread : Yields (item ts) e us) : us <:+ ts := by
  obtain ⟨p, hp, _⟩ := h hread
  obtain ⟨ws, rfl, _⟩ := hp.frame
  exact List.suffix_append ws us

theorem Alike.chainRest {c : Category} (h : Alike vars vars' item item')
    (hs : Sound vars levels c item) (op? : Token → Option ArithOp) (left : Expr)
    (hts : AgreeOn ts vars vars') :
    chainRest op? item left ts = chainRest op? item' left ts := by
  -- By induction on the tokens that are left, of which every item takes some.
  obtain ⟨n, hn⟩ : ∃ n, ts.length = n := ⟨_, rfl⟩
  induction n using Nat.strongRecOn generalizing ts left with
  | ind n ih =>
    cases ts with
    | nil => rw [Formula.chainRest, Formula.chainRest]
    | cons t rest =>
      rw [Formula.chainRest, Formula.chainRest, ← h rest hts.of_cons]
      cases op? t with
      | none => rfl
      | some op =>
        refine bind_congr_of_ok fun r hr => ?_
        obtain ⟨⟨right, mid⟩, hmid⟩ := r
        have hlt : mid.length < n := hn ▸ Nat.lt_succ_of_lt hmid
        have hagree : AgreeOn mid vars vars' := hts.of_cons.suffix (hs.suffix ⟨hmid, hr⟩)
        exact congrArg (· >>= _) (ih mid.length hlt (.arith op left right) hagree rfl)

theorem Alike.chain {c : Category} (h : Alike vars vars' item item') (hs : Sound vars levels c item)
    (op? : Token → Option ArithOp) : Alike vars vars' (chain op? item) (chain op? item') := by
  intro ts hts
  rw [Formula.chain, Formula.chain, ← h ts hts]
  refine bind_congr_of_ok fun r hr => ?_
  obtain ⟨⟨left, mid⟩, hmid⟩ := r
  exact congrArg (· >>= _) (h.chainRest hs op? left (hts.suffix (hs.suffix ⟨hmid, hr⟩)))

theorem Alike.sum (h : Alike vars vars' item item') (hs : Sound vars levels .operand item) :
    Alike vars vars' (sum item) (sum item') :=
  (h.chain hs multiplicative?).chain (hs.chain chained_product) additive?

theorem Alike.comparison (h : Alike vars vars' item item') (hs : Sound vars levels .operand item) :
    Alike vars vars' (comparison item) (comparison item') := by
  intro ts hts
  rw [Formula.comparison, Formula.comparison, ← h.sum hs ts hts]
  refine bind_congr_of_ok fun r hr => ?_
  obtain ⟨⟨left, mid⟩, hmid⟩ := r
  have hagree : AgreeOn mid vars vars' := hts.suffix (hs.sum.suffix ⟨hmid, hr⟩)
  -- Only behind an operator there is more to read.
  dsimp only
  split
  · rename_i op rest _
    rw [h.sum hs rest hagree.of_cons]
  · rfl

theorem Alike.list (h : Alike vars vars' item item') (hs : Sound vars levels .comparison item)
    (hts : AgreeOn ts vars vars') : list item ts = list item' ts := by
  obtain ⟨n, hn⟩ : ∃ n, ts.length = n := ⟨_, rfl⟩
  induction n using Nat.strongRecOn generalizing ts with
  | ind n ih =>
    rw [Formula.list, Formula.list, ← h ts hts]
    refine bind_congr_of_ok fun r hr => ?_
    obtain ⟨⟨first, mid⟩, hmid⟩ := r
    have hagree : AgreeOn mid vars vars' := hts.suffix (hs.suffix ⟨hmid, hr⟩)
    dsimp only
    split
    · rename_i rest hrest
      have hlt : rest.length < n := hn ▸ Nat.lt_of_succ_lt hrest
      rw [ih rest.length hlt hagree.of_cons rfl]
    · rfl

theorem Alike.arguments (h : Alike vars vars' item item') (hs : Sound vars levels .comparison item)
    (hts : AgreeOn ts vars vars') : arguments item ts = arguments item' ts := by
  unfold Formula.arguments
  split
  · rfl
  · rw [h.list hs hts]

theorem Alike.primary (h : Alike vars vars' item item') (hs : Sound vars levels .comparison item) :
    Alike vars vars' (primary vars item) (primary vars' item') := by
  intro ts hts
  unfold Formula.primary
  split
  · rfl
  · rfl
  · rw [h _ hts.of_cons]
  · rw [h.arguments hs hts.of_cons.of_cons]
  · -- A name that is no function is one that the tokens read.
    rename_i x rest hcall
    have hvalue : vars.get? x = vars'.get? x :=
      hts x (by rw [variableNames_name hcall]; exact List.mem_cons_self)
    rw [lookUp, lookUp, hvalue]
  · rfl

end

/-- Operands are read alike, whatever the number of levels. -/
theorem alike_operand (vars vars' : Variables) (levels : Nat) :
    Alike vars vars' (operand vars levels) (operand vars' levels) := by
  induction levels with
  | zero => exact fun _ _ => rfl
  | succ levels ih =>
    have hs := sound_operand vars levels
    intro ts hts
    unfold operand
    dsimp only
    split
    · rw [ih _ hts.of_cons]
    · rw [ih _ hts.of_cons]
    · exact (ih.comparison hs).primary hs.comparison ts hts

/-- **Tokens are read alike**, or refused for the same reason. -/
theorem parse_congr (h : AgreeOn ts vars vars') : parse vars ts = parse vars' ts := by
  rw [parse, parse,
    (alike_operand vars vars' maxNesting).comparison (sound_operand vars maxNesting) ts h]

/-! ### Formulas -/

theorem evaluate?_congr {text : String} (h : ∀ x, Reads text x → vars.get? x = vars'.get? x) :
    evaluate? text vars = evaluate? text vars' := by
  rcases Nat.lt_or_ge maxLength text.length with hlong | hshort
  · rw [evaluate?_of_length_gt hlong, evaluate?_of_length_gt hlong]
  · rw [evaluate?_of_length_le hshort, evaluate?_of_length_le hshort]
    refine bind_congr_of_ok fun ts hts => ?_
    rw [parse_congr fun x hx => h x (reads_iff.2 ⟨ts, hts, hx⟩)]

/-- **A formula depends on the names that it reads**, and on nothing else:

    * variables that give these names the same values, or none, cannot be told apart by the result,
      be it a value or an error;
    * any other variable can be given a value, or lose it, whatever its name has in
      common with these;
    * there is a value only if all of these names have one, those in a branch that is
      not taken included. -/
theorem evaluate?_depends_on_reads (text : String) :
    (∀ vars vars' : Variables, (∀ x, Reads text x → vars.get? x = vars'.get? x) →
        evaluate? text vars = evaluate? text vars') ∧
      (∀ (vars : Variables) (x : String), ¬ Reads text x →
        (∀ v, evaluate? text (vars.set x v) = evaluate? text vars) ∧
          evaluate? text (vars.erase x) = evaluate? text vars) ∧
      ∀ (vars : Variables) (d : Decimal), evaluate? text vars = .ok d →
        ∀ x, Reads text x → ∃ v, vars.get? x = some v := by
  refine ⟨fun vars vars' h => evaluate?_congr h, fun vars x hx => ?_, fun vars d h x hx =>
    Option.isSome_iff_exists.1 (get?_isSome_of_evaluate? h hx)⟩
  have hne : ∀ y, Reads text y → y ≠ x := fun y hy heq => hx (heq ▸ hy)
  refine ⟨fun v => evaluate?_congr fun y hy => ?_, evaluate?_congr fun y hy => ?_⟩
  · rw [Table.get?_set, if_neg (hne y hy)]
  · rw [Table.get?_erase, if_neg (hne y hy)]

/-- The bonus is mentioned in a branch that is not taken for a salary like this. -/
def topUp : String := "IF(PAY > 50, PAY, PAY_BONUS)"

/-- Next to what the text reads there are a shorter name and longer ones, one in other letters, and
    the name of the function. -/
theorem evaluate?_depends_on_reads_topUp :
    let vars : Variables := .ofList [("PAY", .hundred), ("PAY_BONUS", .one)]
    let others : Variables :=
      .ofList [("PA", .one), ("pay", .one), ("IF", .one), ("PAY_BONUS", .one),
      ("PAY", .hundred), ("PAY_BONUS_", .zero), ("_PAY", .zero)]
    evaluate? topUp vars = .ok .hundred ∧ evaluate? topUp others = .ok .hundred ∧
      evaluate? topUp (others.erase "PAY_BONUS") = .error (.unknownVariable "PAY_BONUS") ∧
      evaluate? topUp ((others.set "BONUS" .hundred).erase "IF") = .ok .hundred ∧
      ∃ v, others.get? "PAY_BONUS" = some v := by
  intro vars others
  obtain ⟨ts, htokens, hnames⟩ := exists_ok_of_any (x := tokens topUp)
    (p := fun ts => variableNames ts == ["PAY", "PAY", "PAY_BONUS"]) (by decide +kernel)
  have hreads : ∀ x, Reads topUp x ↔ x ∈ ["PAY", "PAY", "PAY_BONUS"] := by
    intro x
    rw [reads_iff, ← eq_of_beq hnames]
    simp [htokens]
  have hagree : ∀ x, Reads topUp x → vars.get? x = others.get? x := by
    simp only [hreads]
    decide +kernel
  have hfunction : ¬ Reads topUp "IF" := by
    rw [hreads]
    decide
  have hunread : ¬ Reads topUp "BONUS" := by
    rw [hreads]
    decide
  have hvalue : evaluate? topUp vars = .ok .hundred := by decide +kernel
  have hsame : evaluate? topUp others = .ok .hundred :=
    ((evaluate?_depends_on_reads topUp).1 vars others hagree).symm.trans hvalue
  refine ⟨hvalue, hsame, by decide +kernel, ?_, ?_⟩
  · rw [((evaluate?_depends_on_reads topUp).2.1 _ "IF" hfunction).2,
      ((evaluate?_depends_on_reads topUp).2.1 others "BONUS" hunread).1 .hundred, hsame]
  · exact (evaluate?_depends_on_reads topUp).2.2 others .hundred hsame "PAY_BONUS"
      ((hreads _).2 (by decide))

end Payroll.Formula
