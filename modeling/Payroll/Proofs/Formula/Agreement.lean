import Payroll.Proofs.Except
import Payroll.Proofs.Formula.Machine

namespace Payroll.Formula

/-!
# Routines and readers

A reader is given the tokens that are left and as many levels of nesting as are left, where a
routine has all tokens and a cursor: the tokens from its position on are left, and the levels up to
the limit that its depth is below.  Said in these terms, a routine comes out with what the reader
reads, leaves the cursor in front of the tokens that the reader leaves, and stops with the error of
the reader, unless calls are nested too deep in it.

* `bare` — what is read and what is left, as a pair.
* `bare_chain` and the like — readers through the readers of their parts.
* `Routine.read`, `Work.read` — the readers in the place of the routines.
* `Follows` — a step that does what a reader does.
* `follows_carryOut`, `follows_run` — each call does, and hence all of them.
-/

/-! ### What is read and what is left -/

section

variable {α β : Type} {P : α × List Token → Prop} {Q : β × List Token → Prop}

/-- What a reader has read, and what is left. -/
def bare (x : Except FormulaError { r : α × List Token // P r }) :
    Except FormulaError (α × List Token) :=
  x.map Subtype.val

theorem bare_bind {x : Except FormulaError { r : α × List Token // P r }}
    {f : { r : α × List Token // P r } → Except FormulaError { r : β × List Token // Q r }}
    {g : α × List Token → Except FormulaError (β × List Token)}
    (h : ∀ a us hp, bare (f ⟨(a, us), hp⟩) = g (a, us)) :
    bare (x >>= f) = bare x >>= g :=
  map_bind_eq fun r _ => h r.1.1 r.1.2 r.2

/-- A reader whose result is what another one has read. -/
theorem bare_bind_pass {Q : α × List Token → Prop}
    {x : Except FormulaError { r : α × List Token // P r }}
    {f : { r : α × List Token // P r } → Except FormulaError { r : α × List Token // Q r }}
    (hf : ∀ r, ∃ h, f r = .ok ⟨r.1, h⟩) : bare (x >>= f) = bare x := by
  cases x with
  | error e => rfl
  | ok r =>
    obtain ⟨h, hr⟩ := hf r
    change bare (f r) = _
    rw [hr]
    rfl

end

section

variable {op? : Token → Option ArithOp} {item expr : Reader Expr} {left : Expr} {t : Token}
  {us : List Token} {vars : Variables} {levels : Nat}

theorem bare_chain : bare (chain op? item us) = (do
    let (left, rest) ← bare (item us)
    bare (chainRest op? item left rest)) :=
  bare_bind fun _ _ _ => bare_bind_pass fun _ => ⟨_, rfl⟩

theorem bare_chainRest_nil : bare (chainRest op? item left []) = .ok (left, []) := by
  rw [chainRest]
  rfl

theorem bare_chainRest_stop (h : op? t = none) :
    bare (chainRest op? item left (t :: us)) = .ok (left, t :: us) := by
  rw [chainRest, h]
  rfl

theorem bare_chainRest_op {op : ArithOp} (h : op? t = some op) :
    bare (chainRest op? item left (t :: us)) = (do
      let (right, rest) ← bare (item us)
      bare (chainRest op? item (.arith op left right) rest)) := by
  rw [chainRest, h]
  exact bare_bind fun _ _ _ => bare_bind_pass fun _ => ⟨_, rfl⟩

theorem bare_comparison : bare (comparison item us) = (do
    let (left, rest) ← bare (sum item us)
    match rest with
    | .compare op :: rest' => do
      let (right, rest'') ← bare (sum item rest')
      .ok (.compare op left right, rest'')
    | rest => .ok (left, rest)) := by
  refine bare_bind fun left rest hp => ?_
  rcases rest with _ | ⟨t, rest⟩
  · rfl
  cases t with
  | compare op => exact bare_bind fun _ _ _ => rfl
  | number | name | leftParen | arith | rightParen | comma => rfl

theorem bare_list : bare (list item us) = (do
    let (e, rest) ← bare (item us)
    match rest with
    | .comma :: rest' => do
      let (es, rest'') ← bare (list item rest')
      .ok (e :: es, rest'')
    | rest => .ok ([e], rest)) := by
  rw [list]
  refine bare_bind fun e rest hp => ?_
  rcases rest with _ | ⟨t, rest⟩
  · rfl
  cases t with
  | comma => exact bare_bind fun _ _ _ => rfl
  | number | name | leftParen | arith | rightParen | compare => rfl

theorem bare_arguments (h : us.head? ≠ some .rightParen) : bare (arguments item us) = (do
    let (args, rest) ← bare (list item us)
    bare (close args rest)) := by
  unfold arguments
  split
  · exact absurd rfl h
  · exact bare_bind fun _ _ _ => bare_bind_pass fun _ => ⟨_, rfl⟩

theorem bare_close_of_ne {α : Type} {a : α} (h : t ≠ .rightParen) :
    bare (close a (t :: us)) = .error (.unexpectedToken t) := by
  cases t with
  | rightParen => exact absurd rfl h
  | number | name | leftParen | arith | compare | comma => rfl

theorem bare_primary_parens : bare (primary vars expr (.leftParen :: us)) = (do
    let (e, rest) ← bare (expr us)
    let (e, rest') ← bare (close e rest)
    .ok (e, rest')) := by
  rw [primary]
  exact bare_bind fun _ _ _ => bare_bind fun _ _ _ => rfl

theorem bare_primary_call {name : String} :
    bare (primary vars expr (.name name :: .leftParen :: us)) = (do
    let (args, rest) ← bare (arguments expr us)
    (call name args).map (·, rest)) := by
  rw [primary]
  refine bare_bind fun args rest hp => ?_
  dsimp only
  cases call name args <;> rfl

theorem bare_primary_name {name : String} (h : us.head? ≠ some .leftParen) :
    bare (primary vars expr (.name name :: us)) = (lookUp vars name).map (·, us) := by
  rw [primary]
  · cases lookUp vars name <;> rfl
  · rintro rest rfl
    exact h rfl

theorem bare_operand_minus : bare (operand vars (levels + 1) (.arith .sub :: us)) = (do
    let (e, rest) ← bare (operand vars levels us)
    .ok (.neg e, rest)) := by
  rw [operand]
  exact bare_bind fun _ _ _ => rfl

theorem bare_operand_plus :
    bare (operand vars (levels + 1) (.arith .add :: us)) = bare (operand vars levels us) := by
  rw [operand]
  exact bare_bind_pass fun _ => ⟨_, rfl⟩

theorem bare_operand_primary (hminus : us.head? ≠ some (.arith .sub))
    (hplus : us.head? ≠ some (.arith .add)) :
    bare (operand vars (levels + 1) us)
      = bare (primary vars (comparison (operand vars levels)) us) := by
  rw [operand]
  dsimp only
  split
  · exact absurd rfl hminus
  · exact absurd rfl hplus
  · rfl

end

namespace Machine

/-! ### Readers in the place of routines -/

section

variable (vars : Variables) (levels : Nat)

/-- What the reader for a routine reads. -/
def read : Routine → List Token → Except FormulaError (Expr × List Token)
  | .comparison, us => bare (comparison (operand vars levels) us)
  | .chain .sum, us => bare (sum (operand vars levels) us)
  | .chain .product, us => bare (chain multiplicative? (operand vars levels) us)
  | .operand, us => bare (operand vars levels us)
  | .primary, us => bare (primary vars (comparison (operand vars levels)) us)
  | .call name, us => do
    let (args, rest) ← bare (arguments (comparison (operand vars levels)) us)
    (call name args).map (·, rest)

/-- The reader for the parts of a chain. -/
def partReader : Level → Reader Expr
  | .sum => chain multiplicative? (operand vars levels)
  | .product => operand vars levels

/-- What the reader for some work reads. -/
def readWork : Work → List Token → Except FormulaError (Expr × List Token)
  | .routine r, us => read vars levels r us
  | .moreParts level left, us => bare (chainRest level.op? (partReader vars levels level) left us)
  | .moreArguments name args, us => do
    let (more, rest) ← bare (list (comparison (operand vars levels)) us)
    let (all, rest') ← bare (close (args ++ more) rest)
    (call name all).map (·, rest')

end

section

variable {vars : Variables} {levels : Nat} {us : List Token} {level : Level} {name : String}
  {args : List Expr}

theorem read_part : read vars levels level.part us = bare (partReader vars levels level us) := by
  cases level <;> rfl

theorem read_chain : read vars levels (.chain level) us = (do
    let (left, rest) ← read vars levels level.part us
    readWork vars levels (.moreParts level left) rest) := by
  rw [read_part]
  cases level <;> exact bare_chain

theorem read_call (h : us.head? ≠ some .rightParen) :
    read vars levels (.call name) us = readWork vars levels (.moreArguments name []) us := by
  rw [read, bare_arguments h, bind_assoc]
  rfl

theorem readWork_moreArguments : readWork vars levels (.moreArguments name args) us = (do
    let (e, rest) ← read vars levels .comparison us
    match rest with
    | .comma :: rest' => readWork vars levels (.moreArguments name (args ++ [e])) rest'
    | rest => do
      let (all, rest') ← bare (close (args ++ [e]) rest)
      (call name all).map (·, rest')) := by
  rw [readWork, bare_list, bind_assoc]
  refine bind_congr fun (e, rest) => ?_
  rcases rest with _ | ⟨t, rest⟩
  · rfl
  cases t with
  | comma =>
    simp only [readWork, List.append_assoc, List.singleton_append]
    rw [bind_assoc]
    rfl
  | number | name | leftParen | arith | rightParen | compare => rfl

end

/-! ### Steps that do what readers do -/

/-- The step comes out with what is read, in front of what is left and as deep as before, and
    refuses the tokens for the reason for which they cannot be read. -/
def Follows {α : Type} (ts : List Token) (x : Step α) (c : Cursor)
    (y : Except FormulaError (α × List Token)) : Prop :=
  Holds x c (fun a c' => c'.depth = c.depth ∧ y = .ok (a, ts.drop c'.pos))
    fun s _ => ∀ e, s = .refused e → y = .error e

section

variable {α β : Type} {ts : List Token} {x : Step α} {c : Cursor}
  {y : Except FormulaError (α × List Token)}

theorem follows_pure {a : α} {us : List Token} (hus : ts.drop c.pos = us) (h : y = .ok (a, us)) :
    Follows ts (pure a) c y :=
  holds_pure ⟨rfl, hus ▸ h⟩

theorem follows_refused {e : FormulaError} (h : y = .error e) :
    Follows ts (throw (.refused e)) c y :=
  holds_throw fun e' he => by
    cases he
    exact h

/-- Steps in a row do what readers in a row do. -/
theorem Follows.bind {f : α → Step β} {g : α × List Token → Except FormulaError (β × List Token)}
    (hx : Follows ts x c y)
    (hf : ∀ a c', c'.depth = c.depth → Follows ts (f a) c' (g (a, ts.drop c'.pos))) :
    Follows ts (x >>= f) c (y >>= g) := by
  refine Holds.bind (hx.imp (fun a c' h => h) ?_) ?_
  · rintro s c' hs e rfl
    rw [hs e rfl]
    rfl
  · rintro a c' ⟨hdepth, rfl⟩
    exact (hf a c' hdepth).imp (fun b c'' h => ⟨h.1.trans hdepth, h.2⟩) fun s c'' h => h

theorem follows_peek {f : Option Token → Step α} (h : Follows ts (f ts[c.pos]?) c y) :
    Follows ts (peek ts >>= f) c y := holds_peek h

theorem follows_advance {f : Option Token → Step α} {t : Token} (ht : ts[c.pos]? = some t)
    (h : Follows ts (f (some t)) c.next y) : Follows ts (advance ts >>= f) c y :=
  holds_advance_of_some ht h

/-- Behind the last token, nothing is left. -/
theorem drop_of_none (ht : ts[c.pos]? = none) : ts.drop c.pos = [] :=
  List.drop_eq_nil_of_le (List.getElem?_eq_none_iff.1 ht)

/-- The next token is the first one of those that are left. -/
theorem drop_of_some {t : Token} (ht : ts[c.pos]? = some t) :
    ts.drop c.pos = t :: ts.drop c.next.pos := by
  obtain ⟨hlt, rfl⟩ := List.getElem?_eq_some_iff.1 ht
  exact List.drop_eq_getElem_cons hlt

/-- What needs no tokens leaves them all. -/
theorem follows_settle {z : Except FormulaError α} :
    Follows ts (settle z) c (z.map (·, ts.drop c.pos)) := by
  refine holds_settle ?_ ?_
  · rintro a rfl
    exact ⟨rfl, rfl⟩
  · rintro e rfl _ ⟨⟩
    rfl

/-- A parenthesis that is due. -/
theorem follows_close {a : α} {f : Unit → Step β}
    {g : α × List Token → Except FormulaError (β × List Token)}
    (hf : Follows ts (f ()) c.next (g (a, ts.drop c.next.pos))) :
    Follows ts (expect ts .rightParen >>= f) c (bare (close a (ts.drop c.pos)) >>= g) := by
  refine holds_expect ?_ ?_ fun ht => ?_
  · rintro ht _ ⟨⟩
    rw [drop_of_none ht]
    rfl
  · rintro t ht hne _ ⟨⟩
    rw [drop_of_some ht, bare_close_of_ne hne]
    rfl
  · rw [drop_of_some ht]
    exact hf

end

section

variable {ts : List Token} {go : Work → Step Expr} {vars : Variables} {c : Cursor} {name : String}
  {args : List Expr}

/-- Whatever is called does what readers do. -/
def Agrees (ts : List Token) (vars : Variables) (go : Work → Step Expr) : Prop :=
  ∀ (w : Work) (c : Cursor),
    Follows ts (go w) c (readWork vars (maxNesting - c.depth) w (ts.drop c.pos))

theorem follows_finishCall : Follows ts (finishCall ts name args) c (do
    let (args, rest) ← bare (close args (ts.drop c.pos))
    (call name args).map (·, rest)) :=
  follows_close follows_settle

theorem follows_comparison (hgo : Agrees ts vars go) :
    Follows ts (Work.carryOut ts vars go (.routine .comparison)) c
      (read vars (maxNesting - c.depth) .comparison (ts.drop c.pos)) := by
  unfold Work.carryOut
  rw [read, bare_comparison]
  refine (hgo (.routine (.chain .sum)) c).bind fun left c₁ h₁ => follows_peek ?_
  cases ht : ts[c₁.pos]? with
  | none =>
    rw [drop_of_none ht]
    exact follows_pure (drop_of_none ht) rfl
  | some t =>
    rw [drop_of_some ht]
    cases t with
    | compare op =>
      refine follows_advance ht ?_
      rw [← h₁]
      exact (hgo (.routine (.chain .sum)) c₁.next).bind fun right c₂ h₂ => follows_pure rfl rfl
    | number | name | leftParen | arith | rightParen | comma =>
      exact follows_pure (drop_of_some ht) rfl

theorem follows_chain {level : Level} (hgo : Agrees ts vars go) :
    Follows ts (Work.carryOut ts vars go (.routine (.chain level))) c
      (read vars (maxNesting - c.depth) (.chain level) (ts.drop c.pos)) := by
  unfold Work.carryOut
  rw [read_chain]
  refine (hgo (.routine level.part) c).bind fun left c₁ h₁ => ?_
  rw [← h₁]
  exact hgo (.moreParts level left) c₁

theorem follows_moreParts {level : Level} {left : Expr} (hgo : Agrees ts vars go) :
    Follows ts (Work.carryOut ts vars go (.moreParts level left)) c
      (readWork vars (maxNesting - c.depth) (.moreParts level left) (ts.drop c.pos)) := by
  unfold Work.carryOut
  rw [readWork]
  refine follows_peek ?_
  cases ht : ts[c.pos]? with
  | none =>
    rw [drop_of_none ht, bare_chainRest_nil]
    exact follows_pure (drop_of_none ht) rfl
  | some t =>
    rw [drop_of_some ht, Option.bind_some]
    cases hop : level.op? t with
    | none =>
      rw [bare_chainRest_stop hop]
      exact follows_pure (drop_of_some ht) rfl
    | some op =>
      rw [bare_chainRest_op hop, ← read_part]
      refine follows_advance ht ((hgo (.routine level.part) c.next).bind fun right c₁ h₁ => ?_)
      have h := hgo (.moreParts level (.arith op left right)) c₁
      rw [h₁] at h
      exact h

theorem follows_signed (hgo : Agrees ts vars go) :
    Follows ts (signed ts go) c
      (read vars (maxNesting - c.depth + 1) .operand (ts.drop c.pos)) := by
  unfold signed
  rw [read]
  refine follows_peek ?_
  split
  · rename_i ht
    rw [drop_of_some ht, bare_operand_minus]
    exact follows_advance ht
      ((hgo (.routine .operand) c.next).bind fun e c₁ h₁ => follows_pure rfl rfl)
  · rename_i ht
    rw [drop_of_some ht, bare_operand_plus]
    exact follows_advance ht (hgo (.routine .operand) c.next)
  · rename_i hminus hplus
    rw [← List.head?_drop] at hminus hplus
    rw [bare_operand_primary hminus hplus]
    exact hgo (.routine .primary) c

theorem follows_operand (hgo : Agrees ts vars go) :
    Follows ts (Work.carryOut ts vars go (.routine .operand)) c
      (read vars (maxNesting - c.depth) .operand (ts.drop c.pos)) := by
  unfold Work.carryOut
  refine holds_enter ?_ fun hle => ?_
  · rintro hdeep _ ⟨⟩
    rw [Nat.sub_eq_zero_of_le (Nat.le_of_lt_succ hdeep)]
    rfl
  -- A level that is left is taken up inside the operand.
  have hlevels : maxNesting - c.depth = maxNesting - c.entered.depth + 1 := by
    simp only [Cursor.entered]
    omega
  rw [hlevels]
  refine Holds.bind (follows_signed hgo) ?_
  rintro e c₁ ⟨hdepth, hread⟩
  exact holds_leave (hdepth ▸ Nat.succ_ne_zero _) (holds_pure ⟨congrArg (· - 1) hdepth, hread⟩)

theorem follows_primary (hgo : Agrees ts vars go) :
    Follows ts (Work.carryOut ts vars go (.routine .primary)) c
      (read vars (maxNesting - c.depth) .primary (ts.drop c.pos)) := by
  unfold Work.carryOut
  rw [read]
  refine holds_advance (fun ht => ?_) fun t ht => ?_
  · rw [drop_of_none ht]
    exact follows_refused rfl
  rw [drop_of_some ht]
  cases t with
  | number value => exact follows_pure rfl rfl
  | leftParen =>
    rw [bare_primary_parens]
    exact (hgo (.routine .comparison) c.next).bind fun e c₁ h₁ =>
      follows_close (follows_pure rfl rfl)
  | name x =>
    refine follows_peek ?_
    split
    · rename_i ht'
      rw [drop_of_some ht', bare_primary_call]
      exact follows_advance ht' (hgo (.routine (.call x)) c.next.next)
    · rename_i hne
      rw [← List.head?_drop] at hne
      rw [bare_primary_name hne]
      exact follows_settle
  | arith op | compare op | rightParen | comma => exact follows_refused rfl

theorem follows_call (hgo : Agrees ts vars go) :
    Follows ts (Work.carryOut ts vars go (.routine (.call name))) c
      (read vars (maxNesting - c.depth) (.call name) (ts.drop c.pos)) := by
  unfold Work.carryOut
  refine follows_peek ?_
  split
  · rename_i ht
    have h : Follows ts (finishCall ts name []) c _ := follows_finishCall
    rw [drop_of_some ht] at h ⊢
    exact h
  · rename_i hne
    rw [← List.head?_drop] at hne
    rw [read_call hne]
    exact hgo (.moreArguments name []) c

theorem follows_moreArguments (hgo : Agrees ts vars go) :
    Follows ts (Work.carryOut ts vars go (.moreArguments name args)) c
      (readWork vars (maxNesting - c.depth) (.moreArguments name args) (ts.drop c.pos)) := by
  unfold Work.carryOut
  rw [readWork_moreArguments]
  refine (hgo (.routine .comparison) c).bind fun e c₁ h₁ => follows_peek ?_
  have hlast : Follows ts (finishCall ts name (args ++ [e])) c₁ _ := follows_finishCall
  cases ht : ts[c₁.pos]? with
  | none =>
    rw [drop_of_none ht] at hlast ⊢
    exact hlast
  | some t =>
    rw [drop_of_some ht] at hlast ⊢
    cases t with
    | comma =>
      rw [← h₁]
      exact follows_advance ht (hgo (.moreArguments name (args ++ [e])) c₁.next)
    | number | name | leftParen | arith | compare | rightParen => exact hlast

/-- Each call does what readers do if those that it makes do. -/
theorem follows_carryOut (hgo : Agrees ts vars go) : Agrees ts vars (Work.carryOut ts vars go) := by
  intro w c
  cases w with
  | routine r =>
    cases r with
    | comparison => exact follows_comparison hgo
    | chain level => exact follows_chain hgo
    | operand => exact follows_operand hgo
    | primary => exact follows_primary hgo
    | call name => exact follows_call hgo
  | moreParts level left => exact follows_moreParts hgo
  | moreArguments name args => exact follows_moreArguments hgo

end

/-- **Routines do what readers do**, unless calls are nested too deep in them. -/
theorem agrees_run (ts : List Token) (vars : Variables) (fuel : Nat) :
    Agrees ts vars (run ts vars fuel) := by
  induction fuel with
  | zero => exact fun w c => holds_throw nofun
  | succ fuel ih => exact follows_carryOut ih

/-- A formula is a comparison that takes all tokens. -/
theorem map_parse {vars : Variables} {ts : List Token} :
    (parse vars ts).map (·, ([] : List Token)) = (do
    let (e, rest) ← read vars maxNesting .comparison ts
    match rest with
    | [] => .ok (e, [])
    | t :: _ => .error (.unexpectedToken t)) := by
  unfold parse
  rw [read, bare]
  refine map_bind_eq fun ⟨(e, rest), _⟩ _ => ?_
  cases rest <;> rfl

/-- A formula is read as the routines read it. -/
theorem follows_runFormula (ts : List Token) (vars : Variables) (fuel : Nat) :
    Follows ts (runFormula ts vars fuel) .start ((parse vars ts).map (·, [])) := by
  unfold runFormula
  rw [map_parse]
  refine (agrees_run ts vars fuel (.routine .comparison) .start).bind fun e c₁ h₁ => follows_peek ?_
  cases ht : ts[c₁.pos]? with
  | none =>
    rw [drop_of_none ht]
    exact follows_pure (drop_of_none ht) rfl
  | some t =>
    rw [drop_of_some ht]
    exact follows_refused rfl

end Machine

end Payroll.Formula
