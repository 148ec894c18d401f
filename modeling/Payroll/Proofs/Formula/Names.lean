import Payroll.Formula
import Payroll.Proofs.Formula.Parsing

namespace Payroll.Formula

/-!
# Names that a formula reads

A name is read as a variable unless a parenthesis stands behind it.  Which names these are can be
told from the tokens alone, without reading them as an expression.

* `Reads`, `variableNames` — a name that a text reads as a variable, and all of those
  of some tokens.
* `Phrase.names`, `Derives.variableNames_eq` — they are the names of the phrase that
  the tokens form.
* `evaluate?_of_length_le`, `evaluate?_eq_ok_iff` — a text that is not too long has the value of the
  tree that its tokens are read as.
* `get?_isSome_of_evaluate?` — **a formula has a value only if all of them have one**, those
  included that stand in the branch of a condition that is not taken.
-/

/-- The name stands among the tokens of the text, and no parenthesis follows it. -/
def Reads (text : String) (x : String) : Prop :=
  ∃ before after, tokens text = .ok (before ++ .name x :: after) ∧
    ∀ rest, after ≠ .leftParen :: rest

/-- The names without a parenthesis behind them. -/
def variableNames : List Token → List String
  | [] => []
  | .name _ :: .leftParen :: rest => variableNames rest
  | .name x :: rest => x :: variableNames rest
  | _ :: rest => variableNames rest

/-- The names that stand for values in a phrase; names of functions do not. -/
def Phrase.names : Phrase → List String
  | .number _ => []
  | .name x => [x]
  | .call _ args => args.names
  | .parens p => p.names
  | .minus p => p.names
  | .plus p => p.names
  | .arith _ p q => p.names ++ q.names
  | .compare _ p q => p.names ++ q.names
  | .arguments p rest => p.names ++ rest.names

/-- A name with anything but a parenthesis behind it is read as a variable. -/
theorem variableNames_name {x : String} {ts : List Token} (h : ∀ rest, ts ≠ .leftParen :: rest) :
    variableNames (.name x :: ts) = x :: variableNames ts := by
  rw [variableNames]
  exact h

/-- Whatever stands before it, a name with anything but a parenthesis behind it is among them. -/
theorem mem_variableNames_append {x : String} {after : List Token}
    (h : ∀ rest, after ≠ .leftParen :: rest) (before : List Token) :
    x ∈ variableNames (before ++ .name x :: after) := by
  fun_induction variableNames before with
  | case1 =>
    rw [List.nil_append, variableNames_name h]
    exact List.mem_cons_self
  | case2 y rest ih => exact ih
  | case3 y rest hrest ih =>
    rw [List.cons_append, variableNames_name]
    · exact List.mem_cons_of_mem y ih
    · cases rest <;> simp_all
  | case4 t rest hname hcall ih =>
    cases t <;> simp_all [variableNames]

/-- The tokens of a phrase read its names, unless the parenthesis of a call stands behind it. -/
theorem Derives.variableNames_eq {c : Category} {ts us : List Token} {p : Phrase}
    (h : Derives c ts p us) (hu : ∀ rest, us ≠ .leftParen :: rest) :
    variableNames ts = p.names ++ variableNames us := by
  induction h with
  | number => rfl
  | name => exact variableNames_name hu
  | call inner ih | parens inner ih => exact ih (by simp)
  | minus inner ih | plus inner ih => exact ih hu
  | primary part ih | operand part ih | product part ih | sum part ih | argument part ih =>
    exact ih hu
  | multiply _ left right ihl ihr | add _ left right ihl ihr | compare left right ihl ihr
  | arguments left right ihl ihr =>
    -- Between the two parts stands an operator or a comma, which reads no name.
    rw [ihl (by simp), Phrase.names, List.append_assoc, ← ihr hu]
    rfl

/-- A phrase has a meaning only if its names have values. -/
theorem Phrase.Means.get?_isSome {vars : Variables} {p : Phrase} {es : List Expr}
    (h : p.Means vars es) : ∀ x ∈ p.names, (vars.get? x).isSome = true := by
  induction h with
  | number => simp [Phrase.names]
  | name hv =>
    intro x hx
    rw [Phrase.names, List.mem_singleton] at hx
    rw [hx, hv]
    rfl
  | call _ _ ih | parens _ ih | minus _ ih | plus _ ih => exact ih
  | arith _ _ ihl ihr | compare _ _ ihl ihr | arguments _ _ ihl ihr =>
    intro x hx
    exact (List.mem_append.1 hx).elim (ihl x) (ihr x)

/-- Tokens are read only if the names among them have values. -/
theorem get?_isSome_of_parse {vars : Variables} {ts : List Token} {e : Expr}
    (h : parse vars ts = .ok e) : ∀ x ∈ variableNames ts, (vars.get? x).isSome = true := by
  obtain ⟨p, hp, _, hm⟩ := (sound_operand vars maxNesting).comparison (parse_iff.1 h)
  rw [hp.variableNames_eq (by simp), variableNames, List.append_nil]
  exact hm.get?_isSome

/-- A formula that is short enough is split into tokens, read and evaluated. -/
theorem evaluate?_of_length_le {text : String} (h : text.length ≤ maxLength) (vars : Variables) :
    evaluate? text vars = (tokens text >>= fun ts =>
      if ts.isEmpty then .error .empty else parse vars ts >>= Expr.eval) := by
  simp only [evaluate?, Nat.not_lt.2 h]
  refine congrArg (tokens text >>= ·) (funext fun ts => ?_)
  cases ts <;> rfl

theorem evaluate?_of_length_gt {text : String} (h : maxLength < text.length) (vars : Variables) :
    evaluate? text vars = .error (.tooLong text.length) := by
  simp [evaluate?, h, throw, throwThe, MonadExceptOf.throw, bind, Except.bind]

/-- A formula has a value if it is short enough, its tokens are read, and their
    expression has one. -/
theorem evaluate?_eq_ok_iff {vars : Variables} {text : String} {d : Decimal} :
    evaluate? text vars = .ok d ↔
      text.length ≤ maxLength ∧ ∃ ts e, tokens text = .ok ts ∧ ts ≠ [] ∧ parse vars ts = .ok e ∧
        e.eval = .ok d := by
  by_cases hlength : maxLength < text.length
  · simp [evaluate?_of_length_gt hlength, Nat.not_le.2 hlength]
  rw [evaluate?_of_length_le (Nat.le_of_not_lt hlength), bind_eq_ok_iff]
  constructor
  · rintro ⟨ts, hts, hrest⟩
    cases ts with
    | nil => cases hrest
    | cons t rest =>
      obtain ⟨e, he, hvalue⟩ := bind_eq_ok_iff.1 hrest
      exact ⟨Nat.le_of_not_lt hlength, _, e, hts, by simp, he, hvalue⟩
  · rintro ⟨_, ts, e, hts, hne, he, hvalue⟩
    refine ⟨ts, hts, ?_⟩
    rw [if_neg (by simpa using hne)]
    exact bind_eq_ok_iff.2 ⟨e, he, hvalue⟩

/-- **A formula has a value only if the names that it reads have one.** -/
theorem get?_isSome_of_evaluate? {vars : Variables} {text x : String} {d : Decimal}
    (h : evaluate? text vars = .ok d) (hx : Reads text x) : (vars.get? x).isSome = true := by
  obtain ⟨_, ts, e, hts, _, he, _⟩ := evaluate?_eq_ok_iff.1 h
  obtain ⟨before, after, hread, hafter⟩ := hx
  rw [Except.ok.inj (hts.symm.trans hread)] at he
  exact get?_isSome_of_parse he x (mem_variableNames_append hafter before)

end Payroll.Formula
