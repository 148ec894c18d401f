import Payroll.Calendar.Bytes
import Payroll.Proofs.Bytes
import Payroll.Proofs.Calendar.Text
import Payroll.Proofs.Commit.Checks

namespace Payroll

/-!
# Periods and their texts

A period has one written form, and nothing else is read as one.  So a text stands for a period as
well as the period itself does: texts are equal, and are ordered, as periods are.

* `Numeral.digitBytes_lt_iff` — numbers of so many digits are ordered like their bytes.
* `Period.parse?_eq_some_iff`, `Period.HasForm` — what is read as a period.
* `Period.readBytes_eq` — reading by bytes never asks for a place that there is not.
* `Period.bytes_toString_lt_iff` — the order of periods.
* `Period.text_determines` — **a period and its text**, and what a commit is filed under.
-/

open Text

namespace Numeral

theorem isAscii_of_isDigit {c : Char} (h : c.isDigit = true) : IsAscii c :=
  Nat.lt_of_le_of_lt (Char.isDigit_iff_toNat.1 h).2 (by decide)

/-- The bytes of the lowest `width` digits of a number. -/
def digitBytes (width n : Nat) : List UInt8 := (fixedDigits 10 width n).map Char.toUInt8

theorem length_digitBytes (width n : Nat) : (digitBytes width n).length = width := by
  rw [digitBytes, List.length_map, length_fixedDigits]

theorem digitBytes_succ (width n : Nat) :
    digitBytes (width + 1) n = digitBytes width (n / 10) ++ [(digitChar (n % 10)).toUInt8] := by
  rw [digitBytes, fixedDigits, List.map_append]
  rfl

/-- What numbers are ordered alike with tells equal numbers, too. -/
theorem eq_iff_of_lt_iff {f : Nat → List UInt8} {n m : Nat} (h : f n < f m ↔ n < m)
    (h' : f m < f n ↔ m < n) :
    f n = f m ↔ n = m := by
  refine ⟨fun heq => ?_, congrArg f⟩
  rw [heq] at h h'
  exact Nat.le_antisymm (Nat.not_lt.1 (h'.not.1 (List.lt_irrefl _)))
    (Nat.not_lt.1 (h.not.1 (List.lt_irrefl _)))

/-- **Numbers of so many digits** are ordered like their bytes. -/
theorem digitBytes_lt_iff {width n m : Nat} (hn : n < 10 ^ width) (hm : m < 10 ^ width) :
    digitBytes width n < digitBytes width m ↔ n < m := by
  induction width generalizing n m with
  | zero =>
    obtain rfl : n = 0 := Nat.lt_one_iff.1 hn
    obtain rfl : m = 0 := Nat.lt_one_iff.1 hm
    exact iff_of_false (List.lt_irrefl _) (Nat.lt_irrefl 0)
  | succ width ih =>
    rw [Nat.pow_succ] at hn hm
    have hdigit : ∀ d < 10, ∀ e < 10, (digitChar d).toUInt8 < (digitChar e).toUInt8 ↔ d < e := by
      decide
    have hhigher := ih (n := n / 10) (m := m / 10) (by omega) (by omega)
    have hhigher' := ih (n := m / 10) (m := n / 10) (by omega) (by omega)
    rw [digitBytes_succ, digitBytes_succ,
      append_lt_append_iff (by rw [length_digitBytes, length_digitBytes]), hhigher,
      eq_iff_of_lt_iff hhigher hhigher', List.cons_lt_cons_iff,
      hdigit _ (Nat.mod_lt n (by decide)) _ (Nat.mod_lt m (by decide))]
    simp only [List.lt_irrefl, and_false, or_false]
    omega

end Numeral

open Numeral

namespace Period

variable {p q : Period} {cs : List Char} {s : String}

/-! ### Reading -/

/-- **Exactly the written form** of a period is read as it. -/
theorem parse?_eq_some_iff : parse? cs = some p ↔ cs = p.render := by
  constructor
  · intro h
    unfold parse? at h
    split at h
    · rename_i y₁ y₂ y₃ y₄ m₁ m₂
      simp only [Option.bind_eq_bind, Option.bind_eq_some_iff] at h
      obtain ⟨year, hyear, month, hmonth, hparts⟩ := h
      unfold ofParts? at hparts
      split at hparts
      · obtain rfl := Option.some.inj hparts
        have hfirst := (fixedDigits_of_value? hyear).1
        have hlast := (fixedDigits_of_value? hmonth).1
        change _ = fixedDigits 10 4 year ++ '-' :: fixedDigits 10 2 month
        simp only [List.length_cons, List.length_nil, Nat.zero_add, Nat.reduceAdd] at hfirst hlast
        rw [hfirst, hlast]
        rfl
      · cases hparts
    · cases h
  · rintro rfl
    exact parse?_render p

/-- The form of a period: four digits, a hyphen and two digits, of a year from one on and a month
    up to twelve. -/
def HasForm (cs : List Char) : Prop :=
  ∃ ys ms : List Char, cs = ys ++ '-' :: ms ∧ ys.length = 4 ∧ ms.length = 2 ∧
    (∀ c ∈ ys ++ ms, c.isDigit = true) ∧
    ∃ year month, value? 10 ys = some year ∧ 1 ≤ year ∧ value? 10 ms = some month ∧ 1 ≤ month ∧
      month ≤ 12

theorem hasForm_render (p : Period) : HasForm p.render := by
  obtain ⟨⟨hfirst, hlast⟩, hmonth⟩ := p.in_range
  refine ⟨_, _, rfl, length_fixedDigits .., length_fixedDigits .., fun c hc => ?_, p.year, p.month,
    value?_fixedDigits (by decide) (by omega) (by decide), hfirst,
    value?_fixedDigits (by decide) (by omega) (by decide), hmonth⟩
  rcases List.mem_append.1 hc with hc | hc <;> exact isDigit_of_mem_fixedDigits hc

/-- A text is read if it has the form of a period. -/
theorem exists_parse?_iff : (∃ p, parse? cs = some p) ↔ HasForm cs := by
  constructor
  · rintro ⟨p, hp⟩
    rw [parse?_eq_some_iff.1 hp]
    exact hasForm_render p
  · rintro ⟨ys, ms, rfl, hys, hms, -, year, month, hyear, hfirst, hmonth, hrange⟩
    obtain ⟨hwrittenYear, hbound⟩ := fixedDigits_of_value? hyear
    obtain ⟨hwrittenMonth, -⟩ := fixedDigits_of_value? hmonth
    rw [hys] at hwrittenYear hbound
    rw [hms] at hwrittenMonth
    refine ⟨⟨year, month, ⟨hfirst, by omega⟩, hrange⟩, parse?_eq_some_iff.2 ?_⟩
    rw [render, hwrittenYear, hwrittenMonth]

/-! ### Bytes -/

theorem isAscii_of_mem_render {c : Char} (h : c ∈ p.render) : IsAscii c := by
  rw [render, List.mem_append, List.mem_cons] at h
  rcases h with hyear | rfl | hmonth
  · exact isAscii_of_isDigit (isDigit_of_mem_fixedDigits hyear)
  · exact (by decide : '-'.toNat < 128)
  · exact isAscii_of_isDigit (isDigit_of_mem_fixedDigits hmonth)

/-- The bytes of the written form: four digits, a hyphen, two digits. -/
theorem bytes_toString (p : Period) :
    bytes p.toString = digitBytes 4 p.year ++ 45 :: digitBytes 2 p.month := by
  rw [Period.toString, bytes_ofList_of_ascii fun c hc => isAscii_of_mem_render hc, render,
    List.map_append, List.map_cons]
  rfl

/-- Periods are ordered like the bytes of their texts. -/
theorem bytes_toString_lt_iff : bytes p.toString < bytes q.toString ↔ p < q := by
  have hyear : ∀ r s : Period, digitBytes 4 r.year < digitBytes 4 s.year ↔ r.year < s.year :=
    fun r s => digitBytes_lt_iff (by have := r.in_range; omega) (by have := s.in_range; omega)
  have hmonth : digitBytes 2 p.month < digitBytes 2 q.month ↔ p.month < q.month :=
    digitBytes_lt_iff (by have := p.in_range; omega) (by have := q.in_range; omega)
  rw [bytes_toString, bytes_toString,
    append_lt_append_iff (by rw [length_digitBytes, length_digitBytes]), hyear p q,
    eq_iff_of_lt_iff (hyear p q) (hyear q p), List.cons_lt_cons_iff, hmonth]
  simp only [UInt8.lt_irrefl, false_or, true_and]
  rfl

theorem isDigitByte_of_mem_digitBytes {b : UInt8} {width n : Nat} (h : b ∈ digitBytes width n) :
    isDigitByte b = true := by
  obtain ⟨c, hc, rfl⟩ := List.mem_map.1 h
  have hdigit := isDigit_of_mem_fixedDigits hc
  have hcode := Char.isDigit_iff_toNat.1 hdigit
  have hbyte := toNat_toUInt8 (isAscii_of_isDigit hdigit)
  simp only [isDigitByte, Bool.and_eq_true, decide_eq_true_eq, UInt8.le_iff_toNat_le, hbyte]
  exact hcode

/-- The bytes of what is read pass. -/
theorem bytes_of_parse? (h : parse? s.toList = some p) :
    (bytes s).length = 7 ∧ (bytes s)[4]? = some 45 ∧
    ((bytes s).take 4 ++ (bytes s).drop 5).all isDigitByte = true := by
  have hyear := length_digitBytes 4 p.year
  have hmonth := length_digitBytes 2 p.month
  rw [← String.ofList_toList (s := s), parse?_eq_some_iff.1 h, ← Period.toString, bytes_toString]
  refine ⟨?_, ?_, ?_⟩
  · rw [List.length_append, List.length_cons, hyear, hmonth]
  · rw [List.getElem?_append_right hyear.le, hyear, List.getElem?_cons_zero]
  · rw [List.take_left' hyear, List.drop_append, hyear, List.drop_of_length_le (by omega),
      List.nil_append, List.drop_succ_cons, List.drop_zero, List.all_append, Bool.and_eq_true,
      List.all_eq_true, List.all_eq_true]
    exact ⟨fun _ => isDigitByte_of_mem_digitBytes, fun _ => isDigitByte_of_mem_digitBytes⟩

/-- Bytes that pass are those of ASCII characters. -/
theorem isAscii_of_passed (hlength : 4 < (bytes s).length) (hhyphen : (bytes s)[4] = 45)
    (hdigits : ((bytes s).take 4 ++ (bytes s).drop 5).all isDigitByte = true) :
    ∀ c ∈ s.toList, IsAscii c := by
  have hsplit : (bytes s).take 4 ++ 45 :: (bytes s).drop 5 = bytes s := by
    rw [← hhyphen, ← List.drop_eq_getElem_cons hlength, List.take_append_drop]
  rw [List.all_eq_true] at hdigits
  refine isAscii_of_bytes fun b hb => ?_
  rw [String.ofList_toList, ← hsplit, List.mem_append, List.mem_cons] at hb
  have hcases : b = 45 ∨ isDigitByte b = true := by
    rcases hb with hb | rfl | hb
    · exact .inr (hdigits b (List.mem_append_left _ hb))
    · exact .inl rfl
    · exact .inr (hdigits b (List.mem_append_right _ hb))
  rcases hcases with rfl | hdigit
  · decide
  · rw [isDigitByte, Bool.and_eq_true, decide_eq_true_eq, decide_eq_true_eq] at hdigit
    exact UInt8.lt_of_le_of_lt hdigit.2 (by decide)

/-- A character is a hyphen if its byte is one. -/
theorem eq_hyphen {c : Char} (h : IsAscii c) (hbyte : c.toUInt8 = 45) : c = '-' := by
  have hcode := toNat_toUInt8 h
  rw [hbyte] at hcode
  exact Char.toNat_inj.1 hcode.symm

/-- A text of seven characters with a hyphen in its place is read number by number. -/
theorem parse?_of_hyphen (hlength : cs.length = 7) (hhyphen : cs[4]? = some '-') :
    parse? cs = ofNumerals? (cs.take 4) (cs.drop 5) := by
  match cs, hlength with
  | [y₁, y₂, y₃, y₄, c, m₁, m₂], _ =>
    obtain rfl : c = '-' := Option.some.inj hhyphen
    rfl

/-- **Reading by bytes** always has an answer, and it is the right one. -/
theorem readBytes_eq (s : String) : readBytes s = some (periodOf s) := by
  -- What does not pass is no written form.
  have hrefused : (∀ p, parse? s.toList ≠ some p) →
      some (.error (.invalidPeriod s)) = some (periodOf s) := by
    intro hnone
    rw [periodOf_eq_error_iff.2 ⟨Option.eq_none_iff_forall_ne_some.2 hnone, rfl⟩]
  unfold readBytes
  by_cases hlength : (bytes s).length = 7
  · rw [if_neg (not_not.2 hlength), List.getElem?_eq_getElem (by omega)]
    change (if (bytes s)[4] ≠ 45 then _ else _) = _
    by_cases hhyphen : (bytes s)[4] = 45
    · rw [if_neg (not_not.2 hhyphen)]
      by_cases hdigits : ((bytes s).take 4 ++ (bytes s).drop 5).all isDigitByte = true
      · have hascii := isAscii_of_passed (by omega) hhyphen hdigits
        have hmap : bytes s = s.toList.map Char.toUInt8 := by
          rw [← bytes_ofList_of_ascii hascii, String.ofList_toList]
        have hlength' : s.toList.length = 7 := by rw [← hlength, hmap, List.length_map]
        have hhyphen' : s.toList[4]? = some '-' := by
          rw [List.getElem?_eq_getElem (by omega)]
          refine congrArg some (eq_hyphen (hascii _ (List.getElem_mem _)) ?_)
          rw [← hhyphen, ← List.getElem_map Char.toUInt8]
          exact (List.getElem_of_eq hmap _).symm
        rw [if_pos hdigits, cut?_of_ascii hascii (by omega), cut?_of_ascii hascii (by omega)]
        rw [periodOf, parse?_of_hyphen hlength' hhyphen']
        simp only [Option.bind_eq_bind, Option.bind_some]
        cases ofNumerals? (s.toList.take 4) (s.toList.drop 5) <;> rfl
      · rw [if_neg hdigits]
        exact hrefused fun p hp => hdigits (bytes_of_parse? hp).2.2
    · rw [if_pos hhyphen]
      refine hrefused fun p hp => hhyphen ?_
      exact (List.getElem?_eq_some_iff.1 (bytes_of_parse? hp).2.1).2
  · rw [if_pos hlength]
    exact hrefused fun p hp => hlength (bytes_of_parse? hp).1

/-! ### What commits are filed under -/

/-- **A period and its text.**

    * A text is read exactly if it is four digits, a hyphen and two digits of a year from one on and
      a month up to twelve; any other text is refused and named.  Reading it by its bytes comes to
      the same, without going through a character on any text.
    * What is read is written as that text, and what is written is read as that period.
    * Periods are ordered like the bytes of their texts.
    * Commits of one type are filed under one key exactly if the texts of their periods are
      equal. -/
theorem text_determines :
    (∀ s : String, ((∃ p, periodOf s = .ok p) ↔ HasForm s.toList) ∧
      (¬ HasForm s.toList → periodOf s = .error (.invalidPeriod s)) ∧
      readBytes s = some (periodOf s) ∧
      ∀ p, periodOf s = .ok p → p.toString = s) ∧
    (∀ p : Period, periodOf p.toString = .ok p) ∧
    (∀ p q : Period, p < q ↔ bytes p.toString < bytes q.toString) ∧
    ∀ (s t : Submission) (runId runId' : RunId) (now now' : Int) (d e : Delivery),
      s.prepare runId now = .ok d → t.prepare runId' now' = .ok e →
        (d.key = e.key ↔ s.period = t.period ∧ s.payrollType = t.payrollType) := by
  have hwritten : ∀ (s : String) (p : Period), periodOf s = .ok p → p.toString = s := by
    intro s p h
    rw [Period.toString, ← parse?_eq_some_iff.1 (periodOf_eq_ok_iff.1 h), String.ofList_toList]
  refine ⟨fun s => ⟨?_, fun hform => ?_, readBytes_eq s, hwritten s⟩, fun p => ?_,
    fun p q => bytes_toString_lt_iff.symm, fun s t runId runId' now now' d e hd he => ?_⟩
  · rw [← exists_parse?_iff]
    exact exists_congr fun p => periodOf_eq_ok_iff
  · rw [← exists_parse?_iff, not_exists] at hform
    exact periodOf_eq_error_iff.2 ⟨Option.eq_none_iff_forall_ne_some.2 hform, rfl⟩
  · rw [periodOf_eq_ok_iff, Period.toString, String.toList_ofList]
    exact parse?_render p
  · obtain ⟨p, _, hp, _, _, rfl⟩ := Submission.prepare_eq_ok_iff.1 hd
    obtain ⟨q, _, hq, _, _, rfl⟩ := Submission.prepare_eq_ok_iff.1 he
    change RunKey.mk p s.payrollType = RunKey.mk q t.payrollType ↔ _
    rw [RunKey.mk.injEq]
    -- A period is written in one way only.
    refine and_congr_left fun _ => ⟨?_, fun htext => ?_⟩
    · rintro rfl
      exact (hwritten _ _ hp).symm.trans (hwritten _ _ hq)
    · rw [htext] at hp
      exact Except.ok.inj (hp.symm.trans hq)

/-- Bonuses of two months are filed under different keys. -/
theorem text_determines_bonuses :
    let line : Line :=
      ⟨"w1", "40112233", "Ana Quispe", .hundred, .hundred, .zero, .zero, .hundred, []⟩
    let bonus (text : String) : Submission := ⟨text, .bonus, .all, [line]⟩
    ∃ d e, (bonus "2025-03").prepare ⟨1⟩ 0 = .ok d ∧ (bonus "2025-12").prepare ⟨2⟩ 0 = .ok e ∧
      d.key ≠ e.key := by
  intro line bonus
  obtain ⟨d, hd, -⟩ :=
    exists_ok_of_any (x := (bonus "2025-03").prepare ⟨1⟩ 0) (p := fun _ => true) (by decide +kernel)
  obtain ⟨e, he, -⟩ :=
    exists_ok_of_any (x := (bonus "2025-12").prepare ⟨2⟩ 0) (p := fun _ => true) (by decide +kernel)
  have hkey := text_determines.2.2.2 _ _ _ _ _ _ d e hd he
  exact ⟨d, e, hd, he, fun h => absurd (hkey.1 h).1 (by decide)⟩

/-- A sign takes the place of a digit, and seven bytes are no seven characters. -/
example : ["2025-03", "+202-03", "20é-03"].map readBytes
    = [some (.ok ⟨2025, 3, by decide⟩), some (.error (.invalidPeriod "+202-03")),
      some (.error (.invalidPeriod "20é-03"))] := by
  decide +kernel

end Period

end Payroll
