import Mathlib.Data.List.Forall2
import Payroll.Proofs.Decimal.Text
import Payroll.Proofs.Formula.Lexing
import Payroll.Proofs.Formula.Names

namespace Payroll.Formula

/-!
# Formulas in other spellings

Tokens can be written in more ways than one, and with any white space between them.  Every way to
write them gives the same tokens, and a formula does not depend on anything else.

* `Gaps`, `spread` — words with white space before, between and behind them.
* `splits_spread` — **words that spell tokens are split into them** wherever there is white
  space between them.
* `Spells.describe` — a token that is written in some way is spelled by its description.
* `spells_zero_cons_iff`, `spells_concat_point_iff` — zeros in front of a number and a
  point behind it.
* `evaluate?_eq_of_tokens_eq`, `amount_eq_of_tokens_eq` — texts with the same tokens.
* `tokens_respelled` — hence **neither white space nor spelling matters**.
-/

/-! ### White space -/

/-- White space before the first word and behind each one.  Only the last word can do without. -/
structure Gaps (lead : List Char) (gaps : List (List Char)) : Prop where
  lead : ∀ c ∈ lead, isSpace c = true
  space : ∀ gap ∈ gaps, ∀ c ∈ gap, isSpace c = true
  apart : ∀ gap ∈ gaps.dropLast, gap ≠ []

/-- Words with gaps before, between and behind them. -/
def spread (lead : List Char) (words gaps : List (List Char)) : List Char :=
  lead ++ (List.zipWith (· ++ ·) words gaps).flatten

theorem spread_cons (lead w gap : List Char) (words gaps : List (List Char)) :
    spread lead (w :: words) (gap :: gaps) = lead ++ (w ++ spread gap words gaps) := by
  simp [spread]

/-- Behind the first word, the gap after it is the one before the others. -/
theorem Gaps.tail {lead gap : List Char} {gaps : List (List Char)} (h : Gaps lead (gap :: gaps)) :
    Gaps gap gaps where
  lead := h.space gap List.mem_cons_self
  space := fun g hg => h.space g (List.mem_cons_of_mem gap hg)
  apart := by
    cases gaps with
    | nil => simp
    | cons g gaps => exact fun g' hg' => h.apart g' (List.mem_cons_of_mem gap hg')

/-- White space begins no character of a name. -/
theorem isNamePart_eq_false_of_isSpace {c : Char} (h : isSpace c = true) :
    isNamePart c = false := by
  rw [Bool.eq_false_iff, Ne, isNamePart_iff, isNameStart_iff, isDigit_iff]
  rw [isSpace_iff] at h
  omega

/-- No token goes on with white space. -/
theorem Token.stops_of_isSpace (t : Token) {next : Option Char} (h : ∀ c ∈ next, isSpace c = true) :
    t.Stops next := by
  cases next with
  | none => exact t.stops_none
  | some c =>
    have hspace := h c rfl
    cases t with
    | number d =>
      rintro c' ⟨⟩
      rw [Bool.eq_false_iff]
      exact fun hnumeral =>
        absurd hspace (Bool.eq_false_iff.1 (isSpace_eq_false_of_isNumeral hnumeral))
    | name x =>
      rintro c' ⟨⟩
      exact isNamePart_eq_false_of_isSpace hspace
    | compare op =>
      have hne : some c ≠ some '=' := by
        rintro ⟨⟩
        exact absurd hspace (by decide)
      cases op <;> first | exact hne | trivial
    | _ => trivial

/-- White space in front of a text does not change its tokens. -/
theorem Splits.space_append {lead cs : List Char} {ts : List Token} {next : Option Char}
    (hlead : ∀ c ∈ lead, isSpace c = true) (h : Splits cs ts next) :
    Splits (lead ++ cs) ts next := by
  induction lead with
  | nil => exact h
  | cons c lead ih =>
    rw [List.forall_mem_cons] at hlead
    exact .space hlead.1 (ih hlead.2)

/-- **Words that spell tokens** are split into them wherever there is white space between them. -/
theorem splits_spread {words : List (List Char)} {ts : List Token}
    (h : List.Forall₂ Spells words ts) :
    ∀ {lead : List Char} {gaps : List (List Char)}, Gaps lead gaps → gaps.length = ts.length →
      Splits (spread lead words gaps) ts none := by
  induction h with
  | nil =>
    intro lead gaps hgaps _
    exact .space_append hgaps.lead .nil
  | @cons w t words ts hspells hwords ih =>
    intro lead gaps hgaps hlength
    obtain ⟨gap, gaps, rfl⟩ : ∃ g gs, gaps = g :: gs :=
      List.exists_cons_of_length_pos (hlength ▸ Nat.succ_pos ts.length)
    have hlater : gaps.length = ts.length := Nat.succ.inj hlength
    rw [spread_cons]
    refine .space_append hgaps.lead (.token hspells ?_ (ih hgaps.tail hlater))
    refine t.stops_of_isSpace ?_
    rw [Option.or_none]
    cases gap with
    | cons c gap =>
      rintro c' ⟨⟩
      exact hgaps.tail.lead c List.mem_cons_self
    | nil =>
      -- Only behind the last word there can be nothing.
      cases gaps with
      | nil =>
        cases hwords with
        | nil => simp [spread]
        | cons => cases hlater
      | cons g gaps => exact absurd rfl (hgaps.apart [] List.mem_cons_self)

/-! ### Descriptions -/

section

variable {w : List Char} {t : Token} {d : Decimal}

theorem isNumeral_iff_isDigit {c : Char} : isNumeral c = true ↔ c.isDigit = true ∨ c = '.' := by
  rw [isNumeral, Bool.or_eq_true, beq_iff_eq]

/-- A way to write a number is digits and points that stand for it. -/
theorem spells_number_iff : Spells w (.number d) ↔
    (∀ c ∈ w, c.isDigit = true ∨ c = '.') ∧ Decimal.parse? w = some d := by
  constructor
  · intro h
    cases h with
    | number ne numerals value => exact ⟨fun c hc => isNumeral_iff_isDigit.1 (numerals c hc), value⟩
  · rintro ⟨numerals, value⟩
    refine .number ?_ (fun c hc => isNumeral_iff_isDigit.2 (numerals c hc)) value
    rintro rfl
    cases value

/-- A decimal without a sign is written in digits and points. -/
theorem numerals_render (hd : d.negative = false) : ∀ c ∈ d.render, c.isDigit = true ∨ c = '.' := by
  rw [Decimal.render_eq, hd]
  refine List.forall_mem_append.2 ⟨by simp, List.forall_mem_append.2 ⟨?_, ?_⟩⟩
  · exact fun c hc => .inl (Numeral.isDigit_of_mem_digits hc)
  · split
    · simp
    · exact List.forall_mem_cons.2
        ⟨.inr rfl, fun c hc => .inl (Numeral.isDigit_of_mem_fixedDigits hc)⟩

/-- **A token that is written in some way** is spelled by its description. -/
theorem Spells.describe (h : Spells w t) : Spells t.describe.toList t := by
  cases h with
  | @number _ d ne numerals value =>
    have hd : d.negative = false := by
      rw [Decimal.parse?_of_numerals fun c hc => isNumeral_iff_isDigit.1 (numerals c hc)] at value
      exact Decimal.negative_of_ofUnsigned? value
    have hform : (Token.number d).describe.toList = d.render := String.toList_ofList
    rw [hform, spells_number_iff]
    refine ⟨numerals_render hd, ?_⟩
    rw [Decimal.parse?_render, Decimal.HasPlainZero.dropZeroSign_eq fun _ => hd]
  | @name c cs start parts =>
    have hform : (Token.name (String.ofList (c :: cs))).describe.toList = c :: cs :=
      String.toList_ofList
    rw [hform]
    exact .name start parts
  | arith op => exact .arith op
  | compare op => exact .compare op
  | leftParen => exact .leftParen
  | rightParen => exact .rightParen
  | comma => exact .comma

/-- The tokens of a text are written in some way. -/
theorem Splits.exists_spells {cs : List Char} {ts : List Token} {next : Option Char}
    (h : Splits cs ts next) :
    ∀ t ∈ ts, ∃ w, Spells w t := by
  induction h with
  | nil => simp
  | space _ _ ih => exact ih
  | token spells _ _ ih => exact List.forall_mem_cons.2 ⟨⟨_, spells⟩, ih⟩

/-! ### Spellings of numbers -/

/-- A zero in front of a number does not matter, where there is a digit behind it. -/
theorem spells_zero_cons_iff (hdigit : ∃ c ∈ w, c.isDigit = true) :
    Spells ('0' :: w) (.number d) ↔ Spells w (.number d) := by
  rw [spells_number_iff, spells_number_iff, List.forall_mem_cons,
    and_iff_right (Or.inl (by decide))]
  exact and_congr_right fun numerals => by rw [Decimal.parse?_zero_cons numerals hdigit]

/-- A point behind a number does not matter, if there is none in it. -/
theorem spells_concat_point_iff (hpoint : '.' ∉ w) :
    Spells (w ++ ['.']) (.number d) ↔ Spells w (.number d) := by
  rw [spells_number_iff, spells_number_iff, List.forall_mem_append, List.forall_mem_singleton,
    and_iff_left (Or.inr rfl)]
  refine and_congr_right fun numerals => ?_
  have hdigits : ∀ c ∈ w, c.isDigit = true :=
    fun c hc => (numerals c hc).resolve_right fun heq => hpoint (heq ▸ hc)
  rw [Decimal.parse?_concat_point hdigits]

end

/-! ### Texts with the same tokens -/

section

variable {text text' : String}

/-- A formula that is not too long depends on its tokens only. -/
theorem evaluate?_eq_of_tokens_eq (h : tokens text' = tokens text)
    (hlength : text.length ≤ maxLength) (hlength' : text'.length ≤ maxLength) (vars : Variables) :
    evaluate? text' vars = evaluate? text vars := by
  rw [evaluate?_of_length_le hlength, evaluate?_of_length_le hlength', h]

theorem amount_eq_of_tokens_eq (h : tokens text' = tokens text) (hlength : text.length ≤ maxLength)
    (hlength' : text'.length ≤ maxLength) (vars : Variables) :
    amount text' vars = amount text vars := by
  rw [amount, amount, evaluate?_eq_of_tokens_eq h hlength hlength']

end

/-- **Neither white space nor spelling matters.**  Take the tokens of a text.  Their descriptions,
    with white space between any two of them and anywhere around them, have the same tokens again,
    and so has any other way to write them.  Zeros in front of a number and a point behind it are
    such ways.  And every text that has the tokens, if neither is too long, has the same value or
    fails for the same reason, and pays the same. -/
theorem tokens_respelled {text : String} {ts : List Token} (h : tokens text = .ok ts) :
    (∀ lead gaps, Gaps lead gaps → gaps.length = ts.length →
      tokens (String.ofList (spread lead (ts.map fun t => t.describe.toList) gaps)) = .ok ts) ∧
    (∀ words, List.Forall₂ Spells words ts → ∀ lead gaps, Gaps lead gaps → gaps.length = ts.length →
      tokens (String.ofList (spread lead words gaps)) = .ok ts) ∧
    (∀ w d, (∃ c ∈ w, c.isDigit = true) → (Spells ('0' :: w) (.number d) ↔ Spells w (.number d))) ∧
    (∀ w d, '.' ∉ w → (Spells (w ++ ['.']) (.number d) ↔ Spells w (.number d))) ∧
    ∀ text', tokens text' = .ok ts → text.length ≤ 1024 → text'.length ≤ 1024 → ∀ vars,
      evaluate? text' vars = evaluate? text vars ∧ amount text' vars = amount text vars := by
  have hwords : ∀ words, List.Forall₂ Spells words ts → ∀ lead gaps, Gaps lead gaps →
      gaps.length = ts.length → tokens (String.ofList (spread lead words gaps)) = .ok ts := by
    intro words hspells lead gaps hgaps hlength
    rw [tokens, String.toList_ofList, tokensFrom_eq_ok_iff]
    exact splits_spread hspells hgaps hlength
  refine ⟨fun lead gaps hgaps hlength => ?_, hwords, fun w d => spells_zero_cons_iff,
    fun w d => spells_concat_point_iff, fun text' h' hlength hlength' vars => ?_⟩
  · -- The description of a token is one of its spellings.
    refine hwords _ ?_ lead gaps hgaps hlength
    rw [List.forall₂_map_left_iff, List.forall₂_same]
    intro t ht
    obtain ⟨w, hspells⟩ := (tokensFrom_eq_ok_iff.1 h).exists_spells t ht
    exact hspells.describe
  · have hsame : tokens text' = tokens text := h'.trans h.symm
    exact ⟨evaluate?_eq_of_tokens_eq hsame hlength hlength' vars,
      amount_eq_of_tokens_eq hsame hlength hlength' vars⟩

/-- One, a half and seven in spellings of their own, and as they are described, with white
    space in between. -/
theorem tokens_respelled_numbers :
    let half : Decimal := ⟨false, 5, 1, by decide, by decide⟩
    let seven : Decimal := ⟨false, 7, 0, by decide, by decide⟩
    let ts := [.number .one, .arith .add, .number half, .arith .mul, .number seven]
    tokens "1.+.5*007" = .ok ts ∧ tokens " 1\t+ 0.5 *\n7" = .ok ts ∧
      ∀ vars, evaluate? " 1\t+ 0.5 *\n7" vars = evaluate? "1.+.5*007" vars := by
  intro half seven ts
  have htokens : tokens "1.+.5*007" = .ok ts := by decide +kernel
  obtain ⟨hdescribed, _, _, _, hsame⟩ := tokens_respelled htokens
  have hgaps : Gaps [' '] [['\t'], [' '], [' '], ['\n'], []] :=
    ⟨by simp [isSpace], by simp [isSpace], by simp⟩
  have hform : " 1\t+ 0.5 *\n7" = String.ofList (spread [' '] (ts.map fun t => t.describe.toList)
      [['\t'], [' '], [' '], ['\n'], []]) := by decide +kernel
  have htokens' : tokens " 1\t+ 0.5 *\n7" = .ok ts := by
    rw [hform]
    exact hdescribed _ _ hgaps rfl
  exact ⟨htokens, htokens', fun vars => (hsame _ htokens' (by decide) (by decide) vars).1⟩

end Payroll.Formula
