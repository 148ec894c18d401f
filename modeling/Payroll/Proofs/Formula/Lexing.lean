import Mathlib.Data.List.TakeWhile
import Payroll.Formula.Tokens
import Payroll.Proofs.Except

namespace Payroll.Formula

/-!
# How texts are split

A text is white space and tokens, each of them as long as it can be.  This is said here without an
order of reading, for a text with something behind it, and splitting from left to right is shown to
be just that.

* `isAllowed`, `isAllowed_iff` — the characters that formulas are written in, by what
  begins with them.
* `Spells`, `Token.Stops` — the ways to write a token, and what it does not go on with.
* `Splits` — a text is split into tokens; `tokensFrom_append`, and so it is from left to right.
* `Disallowed`, `disallowed_iff` — what neither white space nor a token begins with.
* `Stuck` — a text in front of which there is no token; `exists_splits`, every text can be split up
  to its end or up to where it is stuck.
* `tokensFrom_eq_ok_iff`, `tokensFrom_eq_error_iff` — **what splitting comes to**.
-/

/-! ### Characters -/

/-- The characters of operators and punctuation marks. -/
def symbolChars : List Char := ['+', '-', '*', '/', '(', ')', ',', '<', '>', '=', '!']

/-- The characters that formulas are written in: ASCII digits and letters, the point, the
    underscore, five kinds of white space, operators and punctuation marks. -/
def isAllowed (c : Char) : Bool :=
  c.isDigit || c.isAlpha || ['.', '_', ' ', '\t', '\n', '\x0c', '\r'].contains c
    || symbolChars.contains c

section

variable {c : Char}

theorem isDigit_iff : c.isDigit = true ↔ 48 ≤ c.toNat ∧ c.toNat ≤ 57 := by
  rw [Char.isDigit_iff_toNat]
  rfl

theorem isAlpha_iff :
    c.isAlpha = true ↔ 65 ≤ c.toNat ∧ c.toNat ≤ 90 ∨ 97 ≤ c.toNat ∧ c.toNat ≤ 122 := by
  have hclasses : c.isAlpha = (decide (c.val ≥ 'A'.val ∧ c.val ≤ 'Z'.val)
      || (decide (c.val ≥ 'a'.val) && decide (c.val ≤ 'z'.val))) := rfl
  simp only [hclasses, Bool.or_eq_true, Bool.and_eq_true, decide_eq_true_eq, ge_iff_le,
    UInt32.le_iff_toNat_le, Char.toNat_val]
  rfl

theorem isSpace_iff :
    isSpace c = true ↔ c.toNat = 32 ∨ c.toNat = 9 ∨ c.toNat = 10 ∨ c.toNat = 12 ∨ c.toNat = 13 := by
  simp only [isSpace, Bool.or_eq_true, beq_iff_eq, ← Char.toNat_inj, or_assoc]
  rfl

theorem isNumeral_iff : isNumeral c = true ↔ (48 ≤ c.toNat ∧ c.toNat ≤ 57) ∨ c.toNat = 46 := by
  rw [isNumeral, Bool.or_eq_true, beq_iff_eq, isDigit_iff, ← Char.toNat_inj]
  rfl

theorem isNameStart_iff : isNameStart c = true ↔
    (65 ≤ c.toNat ∧ c.toNat ≤ 90 ∨ 97 ≤ c.toNat ∧ c.toNat ≤ 122) ∨ c.toNat = 95 := by
  rw [isNameStart, Bool.or_eq_true, beq_iff_eq, isAlpha_iff, ← Char.toNat_inj]
  rfl

theorem isNamePart_iff : isNamePart c = true ↔ isNameStart c = true ∨ c.isDigit = true := by
  simp only [isNamePart, isNameStart, Char.isAlphanum, Bool.or_eq_true]
  tauto

/-- Names begin neither with white space nor as numbers do. -/
theorem eq_false_of_isNameStart (h : isNameStart c = true) :
    isSpace c = false ∧ isNumeral c = false := by
  rw [Bool.eq_false_iff, Bool.eq_false_iff, Ne, Ne, isSpace_iff, isNumeral_iff]
  rw [isNameStart_iff] at h
  omega

/-- Numbers do not begin with white space. -/
theorem isSpace_eq_false_of_isNumeral (h : isNumeral c = true) : isSpace c = false := by
  rw [Bool.eq_false_iff, Ne, isSpace_iff]
  rw [isNumeral_iff] at h
  omega

/-- The characters of symbols begin nothing else. -/
theorem eq_false_of_mem_symbolChars (h : c ∈ symbolChars) :
    isSpace c = false ∧ isNumeral c = false ∧ isNameStart c = false := by
  have hall : symbolChars.all (fun c => !isSpace c && !isNumeral c && !isNameStart c) = true := by
    decide
  simpa [and_assoc] using List.all_eq_true.1 hall c h

/-- **The characters of formulas** are those of white space, of numbers, of names and of symbols. -/
theorem isAllowed_iff : isAllowed c = true ↔
    isSpace c = true ∨ isNumeral c = true ∨ isNameStart c = true ∨ c ∈ symbolChars := by
  simp only [isAllowed, isSpace, isNumeral, isNameStart, Bool.or_eq_true, beq_iff_eq,
    List.contains_iff_mem, List.mem_cons, List.not_mem_nil, or_false]
  tauto

end

/-! ### Tokens in writing -/

/-- The characters are a way to write the token. -/
inductive Spells : List Char → Token → Prop
  | number {cs : List Char} {d : Decimal} (ne : cs ≠ []) (numerals : ∀ c ∈ cs, isNumeral c = true)
      (value : Decimal.parse? cs = some d) : Spells cs (.number d)
  | name {c : Char} {cs : List Char} (start : isNameStart c = true)
      (parts : ∀ d ∈ cs, isNamePart d = true) :
      Spells (c :: cs) (.name (String.ofList (c :: cs)))
  | arith (op : ArithOp) : Spells op.symbol.toList (.arith op)
  | compare (op : CompareOp) : Spells op.symbol.toList (.compare op)
  | leftParen : Spells ['('] .leftParen
  | rightParen : Spells [')'] .rightParen
  | comma : Spells [','] .comma

/-- The token does not go on with the next character. -/
def Token.Stops (t : Token) (next : Option Char) : Prop :=
  match t with
  | .number _ => ∀ c ∈ next, isNumeral c = false
  | .name _ => ∀ c ∈ next, isNamePart c = false
  | .compare .lt | .compare .gt => next ≠ some '='
  | _ => True

/-- `Splits cs ts next`: with the given character behind it, the text is split into the tokens. -/
inductive Splits : List Char → List Token → Option Char → Prop
  | nil {next : Option Char} : Splits [] [] next
  | space {c : Char} {cs : List Char} {ts : List Token} {next : Option Char}
      (space : isSpace c = true) (rest : Splits cs ts next) : Splits (c :: cs) ts next
  | token {w cs : List Char} {t : Token} {ts : List Token} {next : Option Char}
      (spells : Spells w t) (stops : t.Stops (cs.head?.or next)) (rest : Splits cs ts next) :
      Splits (w ++ cs) (t :: ts) next

/-- At the end of a text every token stops. -/
theorem Token.stops_none (t : Token) : t.Stops none := by
  cases t with
  | compare op => cases op <;> simp [Stops]
  | _ => simp [Stops]

/-- What is split with something behind it is split without it, too. -/
theorem Splits.alone {cs : List Char} {ts : List Token} {next : Option Char}
    (h : Splits cs ts next) :
    Splits cs ts none := by
  induction h with
  | nil => exact .nil
  | space space _ ih => exact .space space ih
  | @token w cs t _ _ spells stops _ ih =>
    refine .token spells ?_ ih
    cases cs with
    | nil => exact t.stops_none
    | cons c cs => exact stops

/-- Two texts that are split make one that is. -/
theorem Splits.append {cs ds : List Char} {ts us : List Token} {next : Option Char}
    (h : Splits cs ts (ds.head?.or next)) (h' : Splits ds us next) :
    Splits (cs ++ ds) (ts ++ us) next := by
  generalize hbehind : ds.head?.or next = behind at h
  induction h with
  | nil => exact h'
  | space space _ ih => exact .space space (ih hbehind)
  | @token w cs t ts _ spells stops _ ih =>
    rw [List.append_assoc]
    refine .token spells ?_ (ih hbehind)
    rwa [List.head?_append, Option.or_assoc, hbehind]

/-- What formulas are not written in: another character, or a sign of equality or a mark of
    exclamation that does not belong to a comparison. -/
def Disallowed (c : Char) (next : Option Char) : Prop :=
  isAllowed c = false ∨ (c = '=' ∨ c = '!') ∧ next ≠ some '='

/-- `Stuck position cs e`: there is neither white space nor a token in front of the text, which
    begins at the position. -/
inductive Stuck (position : Nat) : List Char → FormulaError → Prop
  | numeral {w rest : List Char} (ne : w ≠ []) (numerals : ∀ c ∈ w, isNumeral c = true)
      (stops : ∀ c ∈ rest.head?, isNumeral c = false) (invalid : Decimal.parse? w = none) :
      Stuck position (w ++ rest) (.invalidNumber (String.ofList w))
  | character {c : Char} {rest : List Char} (disallowed : Disallowed c rest.head?) :
      Stuck position (c :: rest) (.disallowedCharacter c position)

/-! ### Symbols -/

/-- A symbol of one character is a token that does not go on with what is next. -/
theorem spells_of_symbol? {c : Char} {next : Option Char} {t : Token}
    (h : symbol? c next = some (t, false)) : Spells [c] t ∧ t.Stops next := by
  unfold symbol? at h
  split at h <;> cases h
  · exact ⟨.compare .lt, by simpa [Token.Stops] using ‹_›⟩
  · exact ⟨.compare .gt, by simpa [Token.Stops] using ‹_›⟩
  · exact ⟨.arith .add, trivial⟩
  · exact ⟨.arith .sub, trivial⟩
  · exact ⟨.arith .mul, trivial⟩
  · exact ⟨.arith .div, trivial⟩
  · exact ⟨.leftParen, trivial⟩
  · exact ⟨.rightParen, trivial⟩
  · exact ⟨.comma, trivial⟩

/-- A symbol of two characters is a comparison. -/
theorem spells_of_symbol?_wide {c : Char} {next : Option Char} {t : Token}
    (h : symbol? c next = some (t, true)) :
    next = some '=' ∧ Spells [c, '='] t ∧ ∀ next', t.Stops next' := by
  unfold symbol? at h
  split at h <;> cases h
  · exact ⟨rfl, .compare .le, fun _ => trivial⟩
  · exact ⟨rfl, .compare .ge, fun _ => trivial⟩
  · exact ⟨rfl, .compare .eq, fun _ => trivial⟩
  · exact ⟨rfl, .compare .ne, fun _ => trivial⟩

/-- Without a sign of equality behind it, a sign of order is a comparison of its own. -/
theorem symbol?_of_ne {next : Option Char} (h : next ≠ some '=') :
    symbol? '<' next = some (.compare .lt, false) ∧
      symbol? '>' next = some (.compare .gt, false) := by
  constructor
  · unfold symbol?
    split <;> simp_all
  · unfold symbol?
    split <;> simp_all

/-- There is a symbol for every character of symbols, unless it needs a sign of
    equality behind it. -/
theorem symbol?_eq_none_iff {c : Char} {next : Option Char} : symbol? c next = none ↔
    c ∉ symbolChars ∨ (c = '=' ∨ c = '!') ∧ next ≠ some '=' := by
  unfold symbol?
  split <;> simp_all [symbolChars]
  -- What is left is a character that is none of the others.
  tauto

/-- **What is disallowed** is exactly what begins neither white space nor a number, a name
    or a symbol. -/
theorem disallowed_iff {c : Char} {next : Option Char} : Disallowed c next ↔
    isSpace c = false ∧ isNumeral c = false ∧ isNameStart c = false ∧ symbol? c next = none := by
  rw [symbol?_eq_none_iff, Disallowed]
  constructor
  · rintro (hother | ⟨hsign, hnext⟩)
    · rw [Bool.eq_false_iff, Ne, isAllowed_iff] at hother
      simp only [not_or, Bool.not_eq_true] at hother
      exact ⟨hother.1, hother.2.1, hother.2.2.1, .inl hother.2.2.2⟩
    · obtain ⟨hspace, hnumeral, hname⟩ := eq_false_of_mem_symbolChars
        (show c ∈ symbolChars by rcases hsign with rfl | rfl <;> decide)
      exact ⟨hspace, hnumeral, hname, .inr ⟨hsign, hnext⟩⟩
  · rintro ⟨hspace, hnumeral, hname, hsymbol | hsign⟩
    · refine .inl (Bool.eq_false_iff.2 fun hallowed => ?_)
      simpa [hspace, hnumeral, hname, hsymbol] using isAllowed_iff.1 hallowed
    · exact .inr hsign

/-! ### From left to right -/

section

variable {n : Nat} {c : Char} {w cs rest : List Char} {t : Token} {ts : List Token}

theorem takeWhile_append_of_stops {p : Char → Bool} (hw : ∀ c ∈ w, p c = true)
    (hstops : ∀ c ∈ rest.head?, p c = false) :
    (w ++ rest).takeWhile p = w ∧ (w ++ rest).dropWhile p = rest := by
  rw [List.takeWhile_append_of_pos hw, List.dropWhile_append_of_pos hw]
  cases rest with
  | nil => simp
  | cons c rest => simp [hstops c rfl]

theorem tokensFrom_space (h : isSpace c = true) :
    tokensFrom n (c :: cs) = tokensFrom (n + 1) cs := by
  rw [tokensFrom, if_pos h]

/-- Digits and points in front are a number, if they stand for one. -/
theorem tokensFrom_numerals (hne : w ≠ []) (hw : ∀ c ∈ w, isNumeral c = true)
    (hstops : ∀ c ∈ rest.head?, isNumeral c = false) :
    tokensFrom n (w ++ rest)
      = numeral w >>= fun d => (tokensFrom (n + w.length) rest).map (.number d :: ·) := by
  obtain ⟨c, digits, rfl⟩ := List.exists_cons_of_ne_nil hne
  have hc := hw c List.mem_cons_self
  obtain ⟨hdigits, hrest⟩ :=
    takeWhile_append_of_stops (fun d hd => hw d (List.mem_cons_of_mem c hd)) hstops
  rw [List.cons_append, tokensFrom, if_neg (Bool.eq_false_iff.1 (isSpace_eq_false_of_isNumeral hc)),
    if_pos hc, hdigits, hrest]
  rfl

/-- The characters of names in front are a name. -/
theorem tokensFrom_name (hc : isNameStart c = true) (hcs : ∀ d ∈ cs, isNamePart d = true)
    (hstops : ∀ d ∈ rest.head?, isNamePart d = false) :
    tokensFrom n (c :: (cs ++ rest)) = (tokensFrom (n + (c :: cs).length) rest).map
      (.name (String.ofList (c :: cs)) :: ·) := by
  obtain ⟨hspace, hnumeral⟩ := eq_false_of_isNameStart hc
  obtain ⟨hletters, hrest⟩ := takeWhile_append_of_stops hcs hstops
  rw [tokensFrom, if_neg (Bool.eq_false_iff.1 hspace), if_neg (Bool.eq_false_iff.1 hnumeral),
    if_pos hc, hletters, hrest]
  rfl

theorem tokensFrom_symbol (hspace : isSpace c = false) (hnumeral : isNumeral c = false)
    (hname : isNameStart c = false) : tokensFrom n (c :: cs) =
      match symbol? c cs.head? with
      | some (t, false) => (tokensFrom (n + 1) cs).map (t :: ·)
      | some (t, true) => (tokensFrom (n + 2) cs.tail).map (t :: ·)
      | none => .error (.disallowedCharacter c n) := by
  rw [tokensFrom, if_neg (Bool.eq_false_iff.1 hspace), if_neg (Bool.eq_false_iff.1 hnumeral),
    if_neg (Bool.eq_false_iff.1 hname)]
  rfl

/-- A token in front is the first one, as long as it does not go on. -/
theorem tokensFrom_token (hspells : Spells w t) (hstops : t.Stops rest.head?) :
    tokensFrom n (w ++ rest) = (tokensFrom (n + w.length) rest).map (t :: ·) := by
  cases hspells with
  | number ne numerals value =>
    rw [tokensFrom_numerals ne numerals hstops, numeral, value]
    rfl
  | name start parts => exact tokensFrom_name start parts hstops
  | arith op => cases op <;> exact tokensFrom_symbol (by decide) (by decide) (by decide)
  | compare op =>
    cases op with
    | lt =>
      show tokensFrom n ('<' :: rest) = (tokensFrom (n + 1) rest).map _
      rw [tokensFrom_symbol (by decide) (by decide) (by decide), (symbol?_of_ne hstops).1]
    | gt =>
      show tokensFrom n ('>' :: rest) = (tokensFrom (n + 1) rest).map _
      rw [tokensFrom_symbol (by decide) (by decide) (by decide), (symbol?_of_ne hstops).2]
    | le | ge | eq | ne => exact tokensFrom_symbol (by decide) (by decide) (by decide)
  | leftParen | rightParen | comma => exact tokensFrom_symbol (by decide) (by decide) (by decide)

/-- **A text that is split** gives its tokens, ahead of those of what is behind it. -/
theorem tokensFrom_append (h : Splits cs ts rest.head?) :
    tokensFrom n (cs ++ rest) = (tokensFrom (n + cs.length) rest).map (ts ++ ·) := by
  generalize hnext : rest.head? = next at h
  induction h generalizing n with
  | nil => cases hrest : tokensFrom n rest <;> simp [hrest, Except.map]
  | @space c cs ts _ space _ ih =>
    rw [List.cons_append, tokensFrom_space space, ih hnext, List.length_cons,
      Nat.add_right_comm n 1]
    rfl
  | @token w cs t ts _ spells stops _ ih =>
    have hstops : t.Stops (cs ++ rest).head? := by rwa [List.head?_append, hnext]
    rw [List.append_assoc, tokensFrom_token spells hstops, ih hnext, List.length_append,
      Nat.add_assoc]
    cases tokensFrom (n + (w.length + cs.length)) rest <;> rfl

/-- A text that is stuck has no tokens. -/
theorem tokensFrom_of_stuck {e : FormulaError} (h : Stuck n cs e) : tokensFrom n cs = .error e := by
  cases h with
  | numeral ne numerals stops invalid =>
    rw [tokensFrom_numerals ne numerals stops, numeral, invalid]
    rfl
  | character disallowed =>
    obtain ⟨hspace, hnumeral, hname, hsymbol⟩ := disallowed_iff.1 disallowed
    rw [tokensFrom_symbol hspace hnumeral hname, hsymbol]

/-! ### Every text -/

/-- What follows the longest beginning of a kind is not of the kind. -/
theorem head?_dropWhile {p : Char → Bool} : ∀ c ∈ (cs.dropWhile p).head?, p c = false := by
  intro c hc
  have hstops := List.head?_dropWhile_not p cs
  rwa [Option.mem_def.1 hc] at hstops

/-- There is a token in front of the text. -/
def HasToken (cs : List Char) : Prop :=
  ∃ w rest t, cs = w ++ rest ∧ rest.length < cs.length ∧ Spells w t ∧ t.Stops rest.head?

theorem hasToken_or_stuck_of_isNumeral (hc : isNumeral c = true) :
    HasToken (c :: cs) ∨ ∀ n, ∃ e, Stuck n (c :: cs) e := by
  have hsplit : c :: cs = (c :: cs.takeWhile isNumeral) ++ cs.dropWhile isNumeral := by
    rw [List.cons_append, List.takeWhile_append_dropWhile]
  have hall : ∀ d ∈ c :: cs.takeWhile isNumeral, isNumeral d = true :=
    List.forall_mem_cons.2 ⟨hc, fun d hd => List.mem_takeWhile_imp hd⟩
  cases hvalue : Decimal.parse? (c :: cs.takeWhile isNumeral) with
  | some d =>
    exact .inl ⟨_, _, .number d, hsplit, Nat.lt_succ_of_le (length_dropWhile_le isNumeral cs),
      .number (List.cons_ne_nil _ _) hall hvalue, head?_dropWhile⟩
  | none =>
    refine .inr fun n => ⟨.invalidNumber (String.ofList (c :: cs.takeWhile isNumeral)), ?_⟩
    rw [hsplit]
    exact .numeral (List.cons_ne_nil _ _) hall head?_dropWhile hvalue

theorem hasToken_of_isNameStart (hc : isNameStart c = true) : HasToken (c :: cs) := by
  refine ⟨c :: cs.takeWhile isNamePart, cs.dropWhile isNamePart, _, ?_,
    Nat.lt_succ_of_le (length_dropWhile_le isNamePart cs),
    .name hc fun d hd => List.mem_takeWhile_imp hd, head?_dropWhile⟩
  rw [List.cons_append, List.takeWhile_append_dropWhile]

theorem hasToken_of_symbol? {wide : Bool} (h : symbol? c cs.head? = some (t, wide)) :
    HasToken (c :: cs) := by
  cases wide with
  | false =>
    obtain ⟨hspells, hstops⟩ := spells_of_symbol? h
    exact ⟨[c], cs, t, rfl, Nat.lt_succ_self _, hspells, hstops⟩
  | true =>
    obtain ⟨hnext, hspells, hstops⟩ := spells_of_symbol?_wide h
    obtain ⟨rest, rfl⟩ := List.head?_eq_some_iff.1 hnext
    exact ⟨[c, '='], rest, t, rfl, Nat.lt_succ_of_lt (Nat.lt_succ_self _), hspells, hstops _⟩

/-- In front of a text there is white space, or a token, or what it is stuck with. -/
theorem front_cases (c : Char) (cs : List Char) :
    isSpace c = true ∨ HasToken (c :: cs) ∨ ∀ n, ∃ e, Stuck n (c :: cs) e := by
  cases hspace : isSpace c with
  | true => exact .inl rfl
  | false =>
    refine .inr ?_
    cases hnumeral : isNumeral c with
    | true => exact hasToken_or_stuck_of_isNumeral hnumeral
    | false =>
      cases hname : isNameStart c with
      | true => exact .inl (hasToken_of_isNameStart hname)
      | false =>
        cases hsymbol : symbol? c cs.head? with
        | some found => exact .inl (hasToken_of_symbol? hsymbol)
        | none =>
          exact .inr fun n => ⟨_, .character (disallowed_iff.2 ⟨hspace, hnumeral, hname, hsymbol⟩)⟩

/-- **Every text** can be split up to its end, or up to where it is stuck. -/
theorem exists_splits (cs : List Char) :
    ∃ before rest ts, cs = before ++ rest ∧ Splits before ts rest.head? ∧
    (rest = [] ∨ ∀ n, ∃ e, Stuck n rest e) := by
  -- By induction on the length, as every token takes some of the text.
  obtain ⟨n, hn⟩ : ∃ n, cs.length = n := ⟨_, rfl⟩
  induction n using Nat.strongRecOn generalizing cs with
  | ind n ih =>
    cases cs with
    | nil => exact ⟨[], [], [], rfl, .nil, .inl rfl⟩
    | cons c cs =>
      rcases front_cases c cs with hspace | ⟨w, rest, t, hsplit, hlength, hspells, hstops⟩ | hstuck
      · obtain ⟨before, rest, ts, rfl, hsplits, hrest⟩ :=
          ih cs.length (hn ▸ Nat.lt_succ_self _) cs rfl
        exact ⟨c :: before, rest, ts, rfl, .space hspace hsplits, hrest⟩
      · obtain ⟨before, rest, ts, rfl, hsplits, hrest⟩ := ih rest.length (hn ▸ hlength) rest rfl
        rw [List.head?_append] at hstops
        exact ⟨w ++ before, rest, t :: ts, by rw [hsplit, List.append_assoc],
          .token hspells hstops hsplits, hrest⟩
      · exact ⟨[], c :: cs, [], rfl, .nil, .inr hstuck⟩

/-- **A text has tokens** exactly if it is split into them. -/
theorem tokensFrom_eq_ok_iff : tokensFrom n cs = .ok ts ↔ Splits cs ts none := by
  have hends : ∀ {cs ts}, Splits cs ts none → tokensFrom n cs = .ok ts := by
    intro cs ts h
    have hall : tokensFrom n (cs ++ []) = (tokensFrom (n + cs.length) []).map (ts ++ ·) :=
      tokensFrom_append h
    rw [List.append_nil, tokensFrom] at hall
    rw [hall, Except.map, List.append_nil]
  refine ⟨fun h => ?_, hends⟩
  obtain ⟨before, rest, us, rfl, hsplits, rfl | hstuck⟩ := exists_splits cs
  · rw [List.append_nil] at h ⊢
    obtain rfl := Except.ok.inj (h.symm.trans (hends hsplits))
    exact hsplits
  · obtain ⟨e, he⟩ := hstuck (n + before.length)
    rw [tokensFrom_append hsplits, tokensFrom_of_stuck he] at h
    cases h

/-- **A text has no tokens** exactly if it is stuck behind a part that is split. -/
theorem tokensFrom_eq_error_iff {e : FormulaError} : tokensFrom n cs = .error e ↔
    ∃ before rest us, cs = before ++ rest ∧ Splits before us rest.head? ∧
      Stuck (n + before.length) rest e := by
  constructor
  · intro h
    obtain ⟨before, rest, us, rfl, hsplits, rfl | hstuck⟩ := exists_splits cs
    · rw [List.append_nil, tokensFrom_eq_ok_iff.2 hsplits] at h
      cases h
    · obtain ⟨e', he'⟩ := hstuck (n + before.length)
      rw [tokensFrom_append hsplits, tokensFrom_of_stuck he'] at h
      obtain rfl := Except.error.inj h
      exact ⟨before, rest, us, rfl, hsplits, he'⟩
  · rintro ⟨before, rest, us, rfl, hsplits, hstuck⟩
    rw [tokensFrom_append hsplits, tokensFrom_of_stuck hstuck]
    rfl

end

end Payroll.Formula
