import Payroll.Calendar.Period
import Payroll.Proofs.Numeral

namespace Payroll

/-!
# Dates and periods are read back

Dates are read leniently, so that a number ends where no further digit follows; in the written form
it is always followed by a hyphen or by nothing.

* `Date.takeNumber?_append` — a number is split off together with all of its digits.
* `Date.parse?_render`, `Period.parse?_render` — **the written forms are read back**.
-/

open Numeral

namespace Date

/-- Digits are not white space. -/
theorem isBlank_of_isDigit {c : Char} (h : c.isDigit = true) : Text.isBlank c = false := by
  rw [Char.isDigit, Bool.and_eq_true, decide_eq_true_eq, decide_eq_true_eq] at h
  have hlow : 48 ≤ c.toNat := h.1
  have hhigh : c.toNat ≤ 57 := h.2
  have hall : ∀ n ≤ 57, 48 ≤ n → Text.inRanges Text.blankRanges n = false := by decide
  exact hall c.toNat hhigh hlow

/-- Nothing is dropped in front of a digit. -/
theorem dropWhile_isBlank_of_isDigit {c : Char} (h : c.isDigit = true) (cs : List Char) :
    (c :: cs).dropWhile Text.isBlank = c :: cs :=
  List.dropWhile_cons_of_neg (by rw [isBlank_of_isDigit h]; decide)

/-- **A number is split off** with all of its digits if no further one follows. -/
theorem takeNumber?_append {ds rest : List Char} {width n : Nat} (hvalue : value? 10 ds = some n)
    (hdigits : ∀ c ∈ ds, c.isDigit = true) (hnonempty : ds ≠ []) (hwidth : ds.length ≤ width)
    (hrest : ∀ c, rest.head? = some c → c.isDigit = false) :
    takeNumber? width (ds ++ rest) = some (n, rest) := by
  obtain ⟨c, cs, rfl⟩ := List.exists_cons_of_ne_nil hnonempty
  have hblank : (c :: cs ++ rest).dropWhile Text.isBlank = c :: cs ++ rest :=
    dropWhile_isBlank_of_isDigit (hdigits c List.mem_cons_self) (cs ++ rest)
  have hbehind : ∀ k, (rest.take k).takeWhile Char.isDigit = [] := by
    intro k
    cases rest with
    | nil => rw [List.take_nil, List.takeWhile_nil]
    | cons c' cs' =>
      cases k with
      | zero => rfl
      | succ k => exact List.takeWhile_cons_of_neg (by rw [hrest c' rfl]; decide)
  have htaken : ((c :: cs ++ rest).take width).takeWhile Char.isDigit = c :: cs := by
    rw [List.take_append, List.take_of_length_le hwidth, List.takeWhile_append_of_pos hdigits,
      hbehind, List.append_nil]
  unfold takeNumber?
  simp only [hblank, htaken, hvalue]
  simp

/-- A number of so many digits is split off. -/
theorem takeNumber?_fixedDigits {width n : Nat} {rest : List Char} (hn : n < 10 ^ width)
    (hwidth : width ≠ 0) (hrest : ∀ c, rest.head? = some c → c.isDigit = false) :
    takeNumber? width (fixedDigits 10 width n ++ rest) = some (n, rest) := by
  have hlength : (fixedDigits 10 width n).length = width := length_fixedDigits ..
  refine takeNumber?_append (value?_fixedDigits (by decide) hn (by decide))
    (fun c hc => isDigit_of_mem_fixedDigits hc) ?_ hlength.le hrest
  exact List.ne_nil_of_length_pos (by omega)

/-- A hyphen is no digit. -/
theorem isDigit_head?_hyphen (rest : List Char) :
    ∀ c, ('-' :: rest).head? = some c → c.isDigit = false := by
  rintro c hc
  obtain rfl := Option.some.inj hc
  decide

/-- A year without a sign is a number of at most four digits. -/
theorem takeYear?_of_isDigit {c : Char} (h : c.isDigit = true) (cs : List Char) :
    takeYear? (c :: cs) = (takeNumber? 4 (c :: cs)).map fun (n, rest) => ((n : Int), rest) := by
  unfold takeYear?
  rw [dropWhile_isBlank_of_isDigit h]
  split
  · rename_i heq
    obtain ⟨rfl, _⟩ := List.cons.inj heq
    exact absurd h (by decide)
  · rename_i heq
    obtain ⟨rfl, _⟩ := List.cons.inj heq
    exact absurd h (by decide)
  · rfl

/-- Behind its sign, a year has all digits that there are. -/
theorem signed_append {ds rest : List Char} {n : Nat} (sign : Int) (hvalue : value? 10 ds = some n)
    (hdigits : ∀ c ∈ ds, c.isDigit = true) (hnonempty : ds ≠ [])
    (hrest : ∀ c, rest.head? = some c → c.isDigit = false) :
    takeYear?.signed sign (ds ++ rest) = some (sign * n, rest) := by
  obtain ⟨c, cs, rfl⟩ := List.exists_cons_of_ne_nil hnonempty
  have hfirst : (((c :: cs ++ rest).head?).map Char.isDigit).getD false = true :=
    hdigits c List.mem_cons_self
  rw [takeYear?.signed, if_pos hfirst,
    takeNumber?_append hvalue hdigits hnonempty (by rw [List.length_append]; omega) hrest]
  rfl

/-- A year of four digits without a sign is split off. -/
theorem takeYear?_fixedDigits {n : Nat} {rest : List Char} (hn : n < 10 ^ 4)
    (hrest : ∀ c, rest.head? = some c → c.isDigit = false) :
    takeYear? (fixedDigits 10 4 n ++ rest) = some ((n : Int), rest) := by
  have hnumber := takeNumber?_fixedDigits hn (by decide) hrest
  have hnonempty : fixedDigits 10 4 n ≠ [] :=
    List.ne_nil_of_length_pos (by rw [length_fixedDigits]; decide)
  obtain ⟨c, cs, hdigits⟩ := List.exists_cons_of_ne_nil hnonempty
  have hdigit : c.isDigit = true :=
    isDigit_of_mem_fixedDigits (hdigits ▸ List.mem_cons_self : c ∈ fixedDigits 10 4 n)
  rw [hdigits] at hnumber ⊢
  rw [List.cons_append, takeYear?_of_isDigit hdigit, ← List.cons_append, hnumber]
  rfl

/-- **The year is split off**, with its sign if it has one. -/
theorem takeYear?_renderYear (year : Int) (rest : List Char) :
    takeYear? (renderYear year ++ '-' :: rest) = some (year, '-' :: rest) := by
  have hhyphen := isDigit_head?_hyphen rest
  unfold renderYear
  split
  · rename_i hrange
    rw [takeYear?_fixedDigits (by omega) hhyphen, Int.toNat_of_nonneg hrange.1]
  · -- Longer years and negative ones have a sign, and zeros up to four digits.
    have hsigned := fun sign => signed_append sign
      (value?_zeros_append (4 - (digits year.natAbs).length) year.natAbs)
      (fun _ => isDigit_of_mem_zeros_append)
      (List.append_ne_nil_of_right_ne_nil _ (digits_ne_nil _)) hhyphen
    by_cases hneg : year < 0
    · rw [if_pos hneg]
      have hyear : -1 * (year.natAbs : Int) = year := by omega
      exact (hsigned (-1)).trans (by rw [hyear])
    · rw [if_neg hneg]
      have hyear : 1 * (year.natAbs : Int) = year := by omega
      exact (hsigned 1).trans (by rw [hyear])

/-- **The written form of a date** is read back. -/
theorem parse?_render (d : Date) : parse? d.render = some d := by
  have hmonth := d.month_range
  have hday := d.day_range
  have hlong : daysInMonth d.year d.month ≤ 31 := by
    unfold daysInMonth
    repeat' split
    all_goals decide
  have hform : d.render = renderYear d.year ++ '-' :: (fixedDigits 10 2 d.month ++
      '-' :: (fixedDigits 10 2 d.day ++ [])) := by
    simp [render]
  have hparts : ofParts? d.year d.month d.day = some d := dif_pos ⟨d.year_range, hmonth, hday⟩
  have hdrop : ∀ rest, dropHyphen? ('-' :: rest) = some rest := fun _ => rfl
  rw [hform, parse?, takeYear?_renderYear]
  simp only [Option.bind_eq_bind, Option.bind_some, hdrop]
  rw [takeNumber?_fixedDigits (by omega) (by decide) (isDigit_head?_hyphen _)]
  simp only [Option.bind_some, hdrop]
  rw [takeNumber?_fixedDigits (by omega) (by decide) (by simp)]
  exact hparts

end Date

namespace Period

/-- **The written form of a period** is read back. -/
theorem parse?_render (p : Period) : parse? p.render = some p := by
  obtain ⟨⟨hfirst, hlast⟩, hmonth⟩ := p.in_range
  have hyear : value? 10 (fixedDigits 10 4 p.year) = some p.year :=
    value?_fixedDigits (by decide) (by omega) (by decide)
  have hmonths : value? 10 (fixedDigits 10 2 p.month) = some p.month :=
    value?_fixedDigits (by decide) (by omega) (by decide)
  have hparts : ofParts? p.year p.month = some p := by
    rw [ofParts?, dif_pos ⟨by omega, hmonth⟩]
    rfl
  rw [render, ← hparts]
  simp only [fixedDigits, List.nil_append, List.cons_append] at hyear hmonths ⊢
  rw [parse?, hyear, hmonths]
  rfl

end Period

end Payroll
