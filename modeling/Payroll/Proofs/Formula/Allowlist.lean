import Payroll.Proofs.Formula.Failures

namespace Payroll.Formula

/-!
# What formulas are written in

Formulas are written in eighty characters, and among these, signs of equality and marks of
exclamation are good for comparisons only.  A text with anything else in it has no value,
wherever it stands.

* `strays` — the signs of equality and marks of exclamation that belong to no comparison.
* `OffendsAt` — there is a character that formulas are not written in.
* `Spells.allowed`, `Spells.strays_append` — a token does not offend; `Splits.allowed`,
  `Splits.strays_append`, and neither does **what is split into tokens**.
* `evaluate?_allowlist` — **a text that offends has no value**, and the character that
  is reported offends.
-/

/-- The characters that comparisons begin with. -/
def comparisonChars : List Char := ['<', '>', '=', '!']

/-- The positions of the signs of equality and marks of exclamation that belong to no comparison, if
    comparisons are taken from left to right.  The text begins at position `n`. -/
def strays (n : Nat) : List Char → List Nat
  | [] => []
  | c :: '=' :: cs => if c ∈ comparisonChars then strays (n + 2) cs else strays (n + 1) ('=' :: cs)
  | c :: cs => if c = '=' ∨ c = '!' then n :: strays (n + 1) cs else strays (n + 1) cs

/-- At the position is a character that no formula holds, or one that belongs to no comparison
    though it should. -/
def OffendsAt (cs : List Char) (position : Nat) : Prop :=
  (∃ c, cs[position]? = some c ∧ isAllowed c = false) ∨ position ∈ strays 0 cs

section

variable {n : Nat} {c : Char} {w cs rest : List Char} {t : Token} {ts : List Token}
  {next : Option Char}

/-! ### From left to right -/

/-- A comparison of two characters is passed over. -/
theorem strays_pair (hc : c ∈ comparisonChars) : strays n (c :: '=' :: cs) = strays (n + 2) cs := by
  rw [strays, if_pos hc]

/-- Without a sign of equality behind it, a sign belongs to no comparison. -/
theorem strays_of_ne (h : cs.head? ≠ some '=') :
    strays n (c :: cs)
      = if c = '=' ∨ c = '!' then n :: strays (n + 1) cs else strays (n + 1) cs := by
  rw [strays]
  rintro rest rfl
  exact h rfl

/-- A character that no comparison begins with is passed over. -/
theorem strays_other (hc : c ∉ comparisonChars) : strays n (c :: cs) = strays (n + 1) cs := by
  by_cases hnext : cs.head? = some '='
  · obtain ⟨rest, rfl⟩ := List.head?_eq_some_iff.1 hnext
    rw [strays, if_neg hc]
  · have hsign : ¬ (c = '=' ∨ c = '!') := by
      rintro (rfl | rfl)
      · exact hc (by decide)
      · exact hc (by decide)
    rw [strays_of_ne hnext, if_neg hsign]

theorem strays_append (hw : ∀ c ∈ w, c ∉ comparisonChars) :
    strays n (w ++ rest) = strays (n + w.length) rest := by
  induction w generalizing n with
  | nil => rfl
  | cons c w ih =>
    rw [List.forall_mem_cons] at hw
    rw [List.cons_append, strays_other hw.1, ih hw.2, List.length_cons, Nat.add_right_comm,
      Nat.add_assoc]

/-! ### Tokens do not offend -/

/-- Characters of white space, numbers and names are allowed, and no comparison begins with them. -/
theorem allowed_of_class (h : isSpace c = true ∨ isNumeral c = true ∨ isNamePart c = true) :
    isAllowed c = true ∧ c ∉ comparisonChars := by
  have hclass : isSpace c = true ∨ isNumeral c = true ∨ isNameStart c = true := by
    rcases h with hspace | hnumeral | hpart
    · exact .inl hspace
    · exact .inr (.inl hnumeral)
    · rcases isNamePart_iff.1 hpart with hstart | hdigit
      · exact .inr (.inr hstart)
      · exact .inr (.inl (by rw [isNumeral, hdigit, Bool.true_or]))
  refine ⟨isAllowed_iff.2 (by tauto), fun hc => ?_⟩
  have hsubset : comparisonChars ⊆ symbolChars := by decide
  obtain ⟨hspace, hnumeral, hname⟩ := eq_false_of_mem_symbolChars (hsubset hc)
  simp [hspace, hnumeral, hname] at hclass

/-- All characters of a name are parts of it. -/
theorem forall_isNamePart (start : isNameStart c = true) (parts : ∀ d ∈ cs, isNamePart d = true) :
    ∀ d ∈ c :: cs, isNamePart d = true :=
  List.forall_mem_cons.2 ⟨isNamePart_iff.2 (.inl start), parts⟩

/-- A token is written in allowed characters. -/
theorem Spells.allowed (h : Spells w t) : ∀ c ∈ w, isAllowed c = true := by
  cases h with
  | number _ numerals _ => exact fun c hc => (allowed_of_class (.inr (.inl (numerals c hc)))).1
  | name start parts =>
    exact fun c hc => (allowed_of_class (.inr (.inr (forall_isNamePart start parts c hc)))).1
  | arith op => exact List.all_eq_true.1 (by cases op <;> decide)
  | compare op => exact List.all_eq_true.1 (by cases op <;> decide)
  | leftParen | rightParen | comma => exact List.all_eq_true.1 (by decide)

/-- The signs in a token belong to comparisons. -/
theorem Spells.strays_append (h : Spells w t) (hstops : t.Stops rest.head?) :
    strays n (w ++ rest) = strays (n + w.length) rest := by
  cases h with
  | number _ numerals _ =>
    exact Formula.strays_append fun c hc => (allowed_of_class (.inr (.inl (numerals c hc)))).2
  | name start parts =>
    exact Formula.strays_append fun c hc =>
      (allowed_of_class (.inr (.inr (forall_isNamePart start parts c hc)))).2
  | arith op => cases op <;> exact strays_other (by decide)
  | compare op =>
    cases op with
    | le | ge | eq | ne => exact strays_pair (by decide)
    | lt =>
      show strays n ('<' :: rest) = _
      rw [strays_of_ne hstops]
      rfl
    | gt =>
      show strays n ('>' :: rest) = _
      rw [strays_of_ne hstops]
      rfl
  | leftParen | rightParen | comma => exact strays_other (by decide)

/-- **What is split** is written in allowed characters. -/
theorem Splits.allowed (h : Splits cs ts next) : ∀ c ∈ cs, isAllowed c = true := by
  induction h with
  | nil => simp
  | space space _ ih => exact List.forall_mem_cons.2 ⟨(allowed_of_class (.inl space)).1, ih⟩
  | token spells _ _ ih => exact List.forall_mem_append.2 ⟨spells.allowed, ih⟩

/-- **What is split** has signs in comparisons only. -/
theorem Splits.strays_append (h : Splits cs ts rest.head?) :
    strays n (cs ++ rest) = strays (n + cs.length) rest := by
  generalize hnext : rest.head? = next at h
  induction h generalizing n with
  | nil => rfl
  | @space c cs _ _ space _ ih =>
    rw [List.cons_append, strays_other (allowed_of_class (.inl space)).2, ih hnext,
      List.length_cons, Nat.add_right_comm, Nat.add_assoc]
  | @token w cs t _ _ spells stops _ ih =>
    rw [List.append_assoc, spells.strays_append (by rwa [List.head?_append, hnext]), ih hnext,
      List.length_append, Nat.add_assoc]

/-- **A text that has tokens** does not offend. -/
theorem not_offendsAt_of_splits (h : Splits cs ts none) (position : Nat) :
    ¬ OffendsAt cs position := by
  rintro (⟨c, hc, hother⟩ | hstray)
  · have hallowed := h.allowed c (List.mem_of_getElem? hc)
    rw [hother] at hallowed
    cases hallowed
  · have hnone : strays 0 (cs ++ []) = [] := Splits.strays_append h
    rw [List.append_nil] at hnone
    rw [hnone] at hstray
    cases hstray

/-- What a text is stuck with offends. -/
theorem offendsAt_of_stuck {position : Nat} (h : Splits cs ts rest.head?)
    (hstuck : Stuck cs.length rest (.disallowedCharacter c position)) :
    position = cs.length ∧ rest.head? = some c ∧ (cs ++ rest)[position]? = some c ∧
      OffendsAt (cs ++ rest) position := by
  cases hstuck with
  | @character _ rest hdisallowed =>
    have hc : (cs ++ c :: rest)[cs.length]? = some c := by simp
    refine ⟨rfl, rfl, hc, ?_⟩
    rcases hdisallowed with hother | ⟨hsign, hnext⟩
    · exact .inl ⟨c, hc, hother⟩
    · refine .inr ?_
      rw [h.strays_append, Nat.zero_add, strays_of_ne hnext, if_pos hsign]
      exact List.mem_cons_self

end

/-! ### Formulas -/

/-- **A text that offends has no value.**  If a character of the text is none of the allowed ones,
    or a sign of equality or a mark of exclamation that belongs to no comparison, then the formula
    fails, whatever the variables, and pays nothing.  If it fails because of a character, this is
    the character of the text at the position, it offends there, and all that comes before it is
    split into tokens and white space. -/
theorem evaluate?_allowlist (text : String) (vars : Variables) :
    ((∃ position, OffendsAt text.toList position) →
      (∃ e, evaluate? text vars = .error e) ∧ amount text vars = .zero) ∧
    ∀ ch position, evaluate? text vars = .error (.disallowedCharacter ch position) →
      text.toList[position]? = some ch ∧ OffendsAt text.toList position ∧
        ∃ ts, Splits (text.toList.take position) ts (some ch) ∧
          tokens (String.ofList (text.toList.take position)) = .ok ts := by
  constructor
  · rintro ⟨position, hoffends⟩
    cases hvalue : evaluate? text vars with
    | error e =>
      refine ⟨⟨e, rfl⟩, ?_⟩
      rw [amount, hvalue]
    | ok d =>
      -- What splits into tokens to its end has no offending character.
      obtain ⟨_, ts, _, htokens, _⟩ := evaluate?_eq_ok_iff.1 hvalue
      exact absurd hoffends (not_offendsAt_of_splits (tokensFrom_eq_ok_iff.1 htokens) position)
  · intro ch position h
    obtain ⟨_, htokens⟩ := (evaluate?_eq_error_iff_tokens rfl).1 h
    obtain ⟨before, rest, ts, hsplit, hsplits, hstuck⟩ := tokensFrom_eq_error_iff.1 htokens
    rw [Nat.zero_add] at hstuck
    obtain ⟨rfl, hhead, hch, hoffends⟩ := offendsAt_of_stuck hsplits hstuck
    rw [hhead] at hsplits
    have hbefore : text.toList.take before.length = before := by rw [hsplit, List.take_left]
    refine ⟨hsplit ▸ hch, hsplit ▸ hoffends, ts, ?_⟩
    rw [hbefore, tokens, String.toList_ofList]
    exact ⟨hsplits, tokensFrom_eq_ok_iff.2 hsplits.alone⟩

/-- A text that goes on behind a formula. -/
def injected : String := "BASIC_SALARY; rm -rf /"

/-- A comparison with one sign too many. -/
def doubtful : String := "IF(PAY <== 3, 1, 0)"

theorem evaluate?_allowlist_injected :
    let vars : Variables := .ofList [("PAY", .hundred), ("BASIC_SALARY", .hundred)]
    (∃ e, evaluate? doubtful vars = .error e) ∧ amount doubtful vars = .zero ∧
      injected.toList[12]? = some ';' ∧ OffendsAt injected.toList 12 ∧
      tokens (String.ofList (injected.toList.take 12)) = .ok [.name "BASIC_SALARY"] := by
  intro vars
  obtain ⟨hfails, hzero⟩ := (evaluate?_allowlist doubtful vars).1 ⟨9, .inr (by decide +kernel)⟩
  have hreported : evaluate? injected vars = .error (.disallowedCharacter ';' 12) := by
    decide +kernel
  obtain ⟨hch, hoffends, ts, _, htokens⟩ := (evaluate?_allowlist injected vars).2 ';' 12 hreported
  refine ⟨hfails, hzero, hch, hoffends, htokens.trans ?_⟩
  rw [← htokens]
  decide +kernel

end Payroll.Formula
