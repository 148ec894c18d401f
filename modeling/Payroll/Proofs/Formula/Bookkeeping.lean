import Payroll.Proofs.Formula.Agreement
import Payroll.Proofs.Formula.Size

namespace Payroll.Formula.Machine

/-!
# What the routines leave behind

Every routine keeps within the tokens, passes at least one of them for each node that it comes out
with, and leaves all operands that it has entered.  The same is said of the loops, which have nodes
in hand already.  It is proved of one call at a time: a call has fewer tokens in front of it than
the one that it is made by, or is for a phrase that binds tighter, so that calls cannot be nested
deeper and deeper.

* `Work.held`, `Work.rank`, `Work.need` — the nodes in hand, and how deep calls are nested.
* `Ready`, `Done`, `Stopped` — what is kept.
* `keeps_carryOut`, `keeps_run` — each call keeps it if those that it makes do, and hence
  all of them.
* `run_bookkeeping` — **where the routines leave the cursor**, with what the readers read, and how
  deep the result is evaluated.
-/

/-! ### Measures -/

namespace Work

/-- The nodes that are in hand already. -/
def held : Work → Nat
  | .routine _ => 0
  | .moreParts _ left => left.nodes
  | .moreArguments _ args => nodesOfAll args

/-- Work goes on at the same token only with work of lower rank. -/
def rank : Work → Nat
  | .moreParts _ _ => 0
  | .routine .primary => 0
  | .routine .operand => 1
  | .routine (.chain .product) => 2
  | .routine (.chain .sum) => 3
  | .routine .comparison => 4
  | .moreArguments _ _ => 5
  | .routine (.call _) => 6

/-- How deep calls are nested in the work, at most. -/
def need (ts : List Token) (w : Work) (c : Cursor) : Nat := 7 * (ts.length - c.pos) + w.rank

theorem rank_le (w : Work) : w.rank ≤ 6 := by
  rcases w with (_ | (_ | _) | _ | _ | _) | _ | _ <;> simp only [rank] <;> omega

variable {ts : List Token} {w w' : Work} {c c' : Cursor}

theorem need_lt_of_rank (hpos : c'.pos = c.pos) (hrank : w'.rank < w.rank) :
    w'.need ts c' < w.need ts c := by
  rw [need, need, hpos]
  omega

theorem need_lt_of_pos (hpos : c.pos < c'.pos) (hle : c'.pos ≤ ts.length) :
    w'.need ts c' < w.need ts c := by
  have := w'.rank_le
  unfold need
  omega

end Work

/-! ### What is kept -/

/-- The cursor is at a token or behind the last one, and below the bound on the depth. -/
structure Ready (ts : List Token) (top : Nat) (c : Cursor) : Prop where
  pos : c.pos ≤ ts.length
  depth : c.depth < top
  peak : c.peak ≤ top
  limit : maxNesting < top

/-- The work has come out with `e` at the cursor `c'`: with a node for each token passed at most,
    besides those that were in hand. -/
structure Done (ts : List Token) (top : Nat) (w : Work) (c : Cursor) (e : Expr) (c' : Cursor) :
    Prop where
  ready : Ready ts top c'
  depth : c'.depth = c.depth
  nodes : e.nodes + c.pos ≤ w.held + c'.pos

/-- The work has stopped, and not because it was carried out wrong. -/
structure Stopped (top : Nat) (enough : Prop) (s : Stop) (c' : Cursor) : Prop where
  peak : c'.peak ≤ top
  underflow : s ≠ .underflow
  exhausted : enough → s ≠ .exhausted

section

variable {ts : List Token} {top : Nat} {c c' : Cursor} {e : Expr} {t : Token} {enough : Prop}

theorem stopped_refused {err : FormulaError} (h : c.peak ≤ top) :
    Stopped top enough (.refused err) c where
  peak := h
  underflow := nofun
  exhausted := nofun

theorem Stopped.imp {s : Stop} {enough' : Prop} (h : Stopped top enough s c)
    (himp : enough' → enough) :
    Stopped top enough' s c :=
  { h with exhausted := fun h' => h.exhausted (himp h') }

theorem ready_of_pos_le (h : c.pos ≤ ts.length) :
    Ready ts (max c.peak (max c.depth maxNesting + 1)) c where
  pos := h
  depth := by omega
  peak := by omega
  limit := by omega

theorem Ready.next (h : Ready ts top c) (ht : ts[c.pos]? = some t) : Ready ts top c.next :=
  { h with pos := (List.getElem?_eq_some_iff.1 ht).1 }

theorem Ready.entered (h : Ready ts top c) (hle : c.depth + 1 ≤ maxNesting) :
    Ready ts top c.entered :=
  { h with depth := Nat.lt_of_le_of_lt hle h.limit, peak := Nat.max_le.2 ⟨h.peak, h.depth⟩ }

theorem Ready.left (h : Ready ts top c) : Ready ts top c.left :=
  { h with depth := Nat.lt_of_le_of_lt (Nat.sub_le ..) h.depth }

/-- A routine passes a token. -/
theorem Done.pos_lt {r : Routine} (h : Done ts top (.routine r) c e c') : c.pos < c'.pos := by
  have := h.nodes
  have := e.nodes_pos
  simp only [Work.held] at *
  omega

end

/-! ### One call -/

/-- Whatever is called keeps this, with calls in it that are nested less than `fuel` deep. -/
def Keeps (ts : List Token) (top fuel : Nat) (go : Work → Step Expr) : Prop :=
  ∀ w c, Ready ts top c → Holds (go w) c (Done ts top w c) (Stopped top (w.need ts c < fuel))

/-- From `c'` on, `x` carries out the rest of the work that has begun at `c`. -/
abbrev Finishes (ts : List Token) (top fuel : Nat) (w : Work) (c : Cursor) (x : Step Expr)
    (c' : Cursor) : Prop :=
  Holds x c' (Done ts top w c) (Stopped top (w.need ts c < fuel + 1))

section

variable {ts : List Token} {top fuel : Nat} {go : Work → Step Expr} {vars : Variables} {w w' : Work}
  {c c' : Cursor} {name : String} {args : List Expr} {enough : Prop}

/-- A call for work that needs fewer calls in it. -/
theorem Keeps.call (hgo : Keeps ts top fuel go) (hc : Ready ts top c')
    (hneed : w'.need ts c' < w.need ts c) :
    Holds (go w') c' (Done ts top w' c') (Stopped top (w.need ts c < fuel + 1)) :=
  (hgo w' c' hc).imp (fun _ _ h => h) fun _ _ h => h.imp fun hfuel => by omega

/-- A call for the rest of the work. -/
theorem Keeps.finish (hgo : Keeps ts top fuel go) (hc : Ready ts top c')
    (hneed : w'.need ts c' < w.need ts c) (hdepth : c'.depth = c.depth)
    (hheld : w'.held + c.pos ≤ w.held + c'.pos) :
    Finishes ts top fuel w c (go w') c' := by
  refine (hgo.call hc hneed).imp (fun e c'' h => ⟨h.ready, h.depth.trans hdepth, ?_⟩) fun _ _ h => h
  have := h.nodes
  omega

theorem holds_close {α : Type} {f : Unit → Step α} {P : α → Cursor → Prop} (hc : Ready ts top c)
    (hf : Ready ts top c.next → Holds (f ()) c.next P (Stopped top enough)) :
    Holds (expect ts .rightParen >>= f) c P (Stopped top enough) :=
  holds_expect (fun _ => stopped_refused hc.peak) (fun _ _ _ => stopped_refused hc.peak) fun ht =>
    hf (hc.next ht)

theorem holds_finishCall (hc : Ready ts top c) :
    Holds (finishCall ts name args) c
      (fun e c' => Ready ts top c' ∧ c' = c.next ∧ e.nodes ≤ nodesOfAll args)
      (Stopped top enough) :=
  holds_close hc fun hnext =>
    holds_settle (fun _ he => ⟨hnext, rfl, (call_eq_ok_iff.1 he).nodes_le⟩) fun _ _ =>
      stopped_refused hnext.peak

theorem finishes_comparison (hgo : Keeps ts top fuel go) (hc : Ready ts top c) :
    Finishes ts top fuel (.routine .comparison) c
      (Work.carryOut ts vars go (.routine .comparison)) c := by
  unfold Work.carryOut
  refine (hgo.call hc (Work.need_lt_of_rank rfl (by decide))).bind fun left c₁ h₁ => holds_peek ?_
  split
  · rename_i op ht
    have hnext := h₁.ready.next ht
    refine holds_advance_of_some ht ?_
    refine (hgo.call hnext (Work.need_lt_of_pos (Nat.lt_succ_of_lt h₁.pos_lt) hnext.pos)).bind
      fun right c₂ h₂ => ?_
    refine holds_pure ⟨h₂.ready, h₂.depth.trans h₁.depth, ?_⟩
    have := h₁.nodes
    have := h₂.nodes
    simp only [Work.held, Expr.nodes, Cursor.next] at *
    omega
  · exact holds_pure ⟨h₁.ready, h₁.depth, h₁.nodes⟩

theorem finishes_chain {level : Level} (hgo : Keeps ts top fuel go) (hc : Ready ts top c) :
    Finishes ts top fuel (.routine (.chain level)) c
      (Work.carryOut ts vars go (.routine (.chain level))) c := by
  unfold Work.carryOut
  have hrank : (Work.routine level.part).rank < (Work.routine (.chain level)).rank := by
    cases level <;> decide
  refine (hgo.call hc (Work.need_lt_of_rank rfl hrank)).bind fun left c₁ h₁ => ?_
  exact hgo.finish h₁.ready (Work.need_lt_of_pos h₁.pos_lt h₁.ready.pos) h₁.depth h₁.nodes

theorem finishes_moreParts {level : Level} {left : Expr} (hgo : Keeps ts top fuel go)
    (hc : Ready ts top c) :
    Finishes ts top fuel (.moreParts level left) c
      (Work.carryOut ts vars go (.moreParts level left)) c := by
  unfold Work.carryOut
  refine holds_peek ?_
  split
  · rename_i op hop
    obtain ⟨t, ht, _⟩ := Option.bind_eq_some_iff.1 hop
    have hnext := hc.next ht
    refine holds_advance_of_some ht ?_
    refine (hgo.call hnext (Work.need_lt_of_pos (Nat.lt_succ_self _) hnext.pos)).bind
      fun right c₁ h₁ => ?_
    have hpos : c.pos < c₁.pos := Nat.lt_of_succ_lt h₁.pos_lt
    refine hgo.finish h₁.ready (Work.need_lt_of_pos hpos h₁.ready.pos) h₁.depth ?_
    have := h₁.nodes
    simp only [Work.held, Expr.nodes, Cursor.next] at *
    omega
  · exact holds_pure ⟨hc, rfl, Nat.le_refl _⟩

theorem finishes_signed (hgo : Keeps ts top fuel go) (hc : Ready ts top c) :
    Finishes ts top fuel (.routine .operand) c (signed ts go) c := by
  unfold signed
  refine holds_peek ?_
  split
  · rename_i ht
    have hnext := hc.next ht
    refine holds_advance_of_some ht ?_
    refine (hgo.call hnext (Work.need_lt_of_pos (Nat.lt_succ_self _) hnext.pos)).bind
      fun e c₁ h₁ => ?_
    refine holds_pure ⟨h₁.ready, h₁.depth, ?_⟩
    have := h₁.nodes
    simp only [Work.held, Expr.nodes, Cursor.next] at *
    omega
  · rename_i ht
    have hnext := hc.next ht
    refine holds_advance_of_some ht ?_
    exact hgo.finish hnext (Work.need_lt_of_pos (Nat.lt_succ_self _) hnext.pos) rfl
      (Nat.add_le_add_left (Nat.le_succ _) 0)
  · exact hgo.finish hc (Work.need_lt_of_rank rfl (by decide)) rfl (Nat.le_refl _)

theorem finishes_operand (hgo : Keeps ts top fuel go) (hc : Ready ts top c) :
    Finishes ts top fuel (.routine .operand) c
      (Work.carryOut ts vars go (.routine .operand)) c := by
  unfold Work.carryOut
  refine holds_enter (fun _ => stopped_refused (Nat.max_le.2 ⟨hc.peak, hc.depth⟩)) fun hle => ?_
  refine (finishes_signed hgo (hc.entered hle)).bind fun e c₁ h₁ => ?_
  -- The operand is one deeper, and is left at the depth at which it has been entered.
  exact holds_leave (h₁.depth ▸ Nat.succ_ne_zero _)
    (holds_pure ⟨h₁.ready.left, congrArg (· - 1) h₁.depth, h₁.nodes⟩)

theorem finishes_primary (hgo : Keeps ts top fuel go) (hc : Ready ts top c) :
    Finishes ts top fuel (.routine .primary) c
      (Work.carryOut ts vars go (.routine .primary)) c := by
  unfold Work.carryOut
  refine holds_advance (fun _ => holds_throw (stopped_refused hc.peak)) fun t ht => ?_
  have hnext := hc.next ht
  -- A leaf is one node and takes up one token.
  have hnumber : ∀ value, Done ts top (.routine .primary) c (.number value) c.next := by
    refine fun value => ⟨hnext, rfl, ?_⟩
    simp only [Work.held, Expr.nodes, Cursor.next]
    omega
  cases t with
  | number value => exact holds_pure (hnumber value)
  | leftParen =>
    refine (hgo.call hnext (Work.need_lt_of_pos (Nat.lt_succ_self _) hnext.pos)).bind
      fun e c₁ h₁ => ?_
    refine holds_close h₁.ready fun hc₂ => holds_pure ⟨hc₂, h₁.depth, ?_⟩
    have := h₁.nodes
    simp only [Work.held, Cursor.next] at *
    omega
  | name x =>
    refine holds_peek ?_
    split
    · rename_i ht'
      have hnext' := hnext.next ht'
      refine holds_advance_of_some ht' ?_
      refine hgo.finish hnext'
        (Work.need_lt_of_pos (Nat.lt_succ_of_lt (Nat.lt_succ_self _)) hnext'.pos) rfl ?_
      simp only [Work.held, Cursor.next]
      omega
    · refine holds_settle (fun e he => ?_) fun _ _ => stopped_refused hnext.peak
      unfold lookUp at he
      split at he
      · obtain rfl := Except.ok.inj he
        exact hnumber _
      · cases he
  | arith op | compare op | rightParen | comma => exact holds_throw (stopped_refused hnext.peak)

theorem finishes_call (hgo : Keeps ts top fuel go) (hc : Ready ts top c) :
    Finishes ts top fuel (.routine (.call name)) c
      (Work.carryOut ts vars go (.routine (.call name))) c := by
  unfold Work.carryOut
  refine holds_peek ?_
  split
  · refine (holds_finishCall hc).imp ?_ fun _ _ h => h
    rintro e _ ⟨hnext, rfl, hnodes⟩
    refine ⟨hnext, rfl, ?_⟩
    simp only [Work.held, nodesOfAll, Cursor.next] at *
    omega
  · exact hgo.finish hc (Work.need_lt_of_rank rfl (Nat.lt_succ_self 5)) rfl (Nat.le_refl _)

theorem finishes_moreArguments (hgo : Keeps ts top fuel go) (hc : Ready ts top c) :
    Finishes ts top fuel (.moreArguments name args) c
      (Work.carryOut ts vars go (.moreArguments name args)) c := by
  unfold Work.carryOut
  have hrank : (Work.routine .comparison).rank < (Work.moreArguments name args).rank :=
    Nat.lt_succ_self 4
  refine (hgo.call hc (Work.need_lt_of_rank rfl hrank)).bind fun e c₁ h₁ => holds_peek ?_
  have hnodes := h₁.nodes
  split
  · rename_i ht
    have hnext := h₁.ready.next ht
    refine holds_advance_of_some ht ?_
    refine hgo.finish hnext (Work.need_lt_of_pos (Nat.lt_succ_of_lt h₁.pos_lt) hnext.pos)
      h₁.depth ?_
    simp only [Work.held, nodesOfAll_append, nodesOfAll, Cursor.next] at *
    omega
  · refine (holds_finishCall h₁.ready).imp ?_ fun _ _ h => h
    rintro e' _ ⟨hnext, rfl, hcall⟩
    refine ⟨hnext, h₁.depth, ?_⟩
    simp only [Work.held, nodesOfAll_append, nodesOfAll, Cursor.next] at *
    omega

/-- Each call keeps it if those that it makes do. -/
theorem keeps_carryOut (hgo : Keeps ts top fuel go) :
    Keeps ts top (fuel + 1) (Work.carryOut ts vars go) := by
  intro w c hc
  cases w with
  | routine r =>
    cases r with
    | comparison => exact finishes_comparison hgo hc
    | chain level => exact finishes_chain hgo hc
    | operand => exact finishes_operand hgo hc
    | primary => exact finishes_primary hgo hc
    | call name => exact finishes_call hgo hc
  | moreParts level left => exact finishes_moreParts hgo hc
  | moreArguments name args => exact finishes_moreArguments hgo hc

end

/-! ### All calls -/

/-- **What every call keeps**, however deep calls can be nested in it. -/
theorem keeps_run (ts : List Token) (vars : Variables) (top fuel : Nat) :
    Keeps ts top fuel (run ts vars fuel) := by
  induction fuel with
  | zero => exact fun w c hc => holds_throw ⟨hc.peak, nofun, fun h => absurd h (Nat.not_lt_zero _)⟩
  | succ fuel ih => exact keeps_carryOut ih

/-- A formula passes all tokens. -/
theorem keeps_runFormula (ts : List Token) (vars : Variables) (fuel : Nat) :
    Holds (runFormula ts vars fuel) .start (fun e c' => c'.peak ≤ 65 ∧ e.nodes ≤ ts.length)
      (Stopped 65 (7 * ts.length + 4 < fuel)) := by
  have hready : Ready ts 65 .start := ⟨Nat.zero_le _, by decide, by decide, by decide⟩
  unfold runFormula
  refine (keeps_run ts vars 65 fuel (.routine .comparison) .start hready).bind fun e c' h =>
    holds_peek ?_
  cases ht : ts[c'.pos]? with
  | none =>
    have := h.nodes
    have := h.ready.pos
    simp only [Work.held, Cursor.start] at *
    exact holds_pure ⟨h.ready.peak, by omega⟩
  | some t => exact holds_throw (stopped_refused h.ready.peak)

section

variable {α : Type} {ts : List Token} {x : Step α} {c : Cursor}
  {y : Except FormulaError (α × List Token)} {P : α → Cursor → Prop} {top : Nat} {enough : Prop}

theorem Holds.peak_le (h : Holds x c P (Stopped top enough)) (hP : ∀ a c', P a c' → c'.peak ≤ top) :
    (outcome x c).2.peak ≤ top := by
  rcases hx : outcome x c with ⟨s | a, c'⟩
  · exact (h.of_error hx).peak
  · exact hP a c' (h.of_ok hx)

theorem Holds.ne_underflow (h : Holds x c P (Stopped top enough)) :
    (outcome x c).1 ≠ .error .underflow := by
  rcases hx : outcome x c with ⟨s | a, c'⟩
  · exact fun heq => (h.of_error hx).underflow (Except.error.inj heq)
  · nofun

/-- A step that does what a reader does has the result of the reader, if calls can be
    nested deep enough. -/
theorem Follows.fst_eq (hfollows : Follows ts x c y) (h : Holds x c P (Stopped top enough))
    (henough : enough) :
    (outcome x c).1 = (y.map Prod.fst).mapError .refused := by
  rcases hx : outcome x c with ⟨s | a, c'⟩
  · have hstop := h.of_error hx
    cases s with
    | refused e =>
      rw [hfollows.of_error hx e rfl]
      rfl
    | underflow => exact absurd rfl hstop.underflow
    | exhausted => exact absurd rfl (hstop.exhausted henough)
  · rw [(hfollows.of_ok hx).2]
    rfl

end

/-- **Bookkeeping of the routines**, whatever the tokens, the variables and the cursor.  A routine
    that comes out is as deep as it was and has passed a token, and a token for each node at least;
    it has read what the reader reads.  None of them leaves what it has not entered, or is deeper
    than 65 operands unless there were more than 64 before.  All of them end: with calls nested deep
    enough, they come to what the readers come to, and a formula to what it is parsed to.  What has
    been parsed is evaluated with no more calls inside each other than there are tokens. -/
theorem run_bookkeeping (vars : Variables) (ts : List Token) :
    (∀ (r : Routine) (c : Cursor) (fuel : Nat), c.pos ≤ ts.length →
      (∀ e c', outcome (run ts vars fuel (.routine r)) c = (.ok e, c') →
        c'.depth = c.depth ∧ c.pos < c'.pos ∧ c'.pos ≤ ts.length ∧ e.nodes ≤ c'.pos - c.pos ∧
          read vars (64 - c.depth) r (ts.drop c.pos) = .ok (e, ts.drop c'.pos)) ∧
      (outcome (run ts vars fuel (.routine r)) c).1 ≠ .error .underflow ∧
      (outcome (run ts vars fuel (.routine r)) c).2.peak ≤ max c.peak (max c.depth 64 + 1) ∧
      (7 * (ts.length - c.pos) + 6 < fuel →
        (outcome (run ts vars fuel (.routine r)) c).1
          = ((read vars (64 - c.depth) r (ts.drop c.pos)).map Prod.fst).mapError .refused)) ∧
    (∀ fuel, 7 * ts.length + 4 < fuel →
      (outcome (runFormula ts vars fuel) .start).1 = (parse vars ts).mapError .refused ∧
        (outcome (runFormula ts vars fuel) .start).2.peak ≤ 65) ∧
    ∀ e, parse vars ts = .ok e →
      e.nodes ≤ ts.length ∧ (e.evalWithin ts.length).run = some e.eval := by
  have hformula : ∀ fuel, 7 * ts.length + 4 < fuel →
      (outcome (runFormula ts vars fuel) .start).1 = (parse vars ts).mapError .refused := by
    intro fuel hfuel
    rw [(follows_runFormula ts vars fuel).fst_eq (keeps_runFormula ts vars fuel) hfuel]
    cases parse vars ts <;> rfl
  refine ⟨fun r c fuel hpos => ?_, fun fuel hfuel => ⟨hformula fuel hfuel, ?_⟩, fun e he => ?_⟩
  · have hkeeps := keeps_run ts vars _ fuel (.routine r) c (ready_of_pos_le hpos)
    have hfollows := agrees_run ts vars fuel (.routine r) c
    refine ⟨fun e c' hx => ?_, hkeeps.ne_underflow, hkeeps.peak_le fun _ _ h => h.ready.peak,
      fun hfuel => ?_⟩
    · -- What a run keeps bounds the tree, and what it follows is the reader.
      have h := hkeeps.of_ok hx
      have hnodes := h.nodes
      rw [Work.held] at hnodes
      exact ⟨h.depth, h.pos_lt, h.ready.pos, by omega, (hfollows.of_ok hx).2⟩
    · refine hfollows.fst_eq hkeeps ?_
      have := (Work.routine r).rank_le
      unfold Work.need
      omega
  · exact (keeps_runFormula ts vars fuel).peak_le fun _ _ h => h.1
  · -- With enough fuel the cursor finds the same tree, and its position bounds the nodes.
    have hfst := hformula _ (Nat.lt_succ_self _)
    rw [he] at hfst
    have hnodes := ((keeps_runFormula ts vars _).of_ok (Prod.ext hfst rfl)).2
    exact ⟨hnodes, Expr.run_evalWithin hnodes⟩

/-- `-ABS((1))` has seven tokens, all of which are passed, and comes out with three nodes, four
    operands having been inside each other. -/
theorem run_bookkeeping_negated :
    let ts : List Token :=
      [.arith .sub, .name "ABS", .leftParen, .leftParen, .number .one, .rightParen, .rightParen]
    let e : Expr := .neg (.abs (.number .one))
    outcome (run ts .empty 56 (.routine .comparison)) .start = (.ok e, ⟨7, 0, 4⟩) ∧ e.nodes ≤ 7 ∧
      read .empty 64 .comparison ts = .ok (e, []) ∧ parse .empty ts = .ok e ∧
        (e.evalWithin 7).run = some e.eval := by
  intro ts e
  have hrun : outcome (run ts .empty 56 (.routine .comparison)) .start = (.ok e, ⟨7, 0, 4⟩) := by
    rfl
  have hformula : (outcome (runFormula ts .empty 56) .start).1 = .ok e := by rfl
  obtain ⟨hroutine, hparse, htree⟩ := run_bookkeeping .empty ts
  obtain ⟨-, -, -, hnodes, hread⟩ := (hroutine .comparison .start 56 (by decide)).1 e _ hrun
  have he : parse .empty ts = .ok e :=
    mapError_eq_ok_iff.1 ((hparse 56 (by decide)).1.symm.trans hformula)
  exact ⟨hrun, hnodes, hread, he, (htree e he).2⟩

end Payroll.Formula.Machine
