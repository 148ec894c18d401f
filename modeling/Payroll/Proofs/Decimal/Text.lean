import Payroll.Decimal.Text
import Payroll.Proofs.Decimal.Exact
import Payroll.Proofs.Numeral

namespace Payroll

/-!
# Decimals are read back

The written form shows the coefficient and, by its point, the scale.  It shows the sign of a zero
too, but a zero takes none when it is read.

* `Decimal.readDigits_append` — digits that there is room for are read as they stand.
* `Decimal.parse?_zero_cons`, `Decimal.parse?_concat_point` — zeros in front and a point behind
  do not matter.
* `Decimal.parse?_render` — **the written form of a decimal is read as the same decimal**, except
  that a zero loses its sign.
* `Decimal.dropZeroSign_eq_self_iff` — nothing else is lost.
-/

namespace Decimal

open Numeral

/-! ### The sign of zero -/

@[simp] theorem coefficient_dropZeroSign (d : Decimal) :
    d.dropZeroSign.coefficient = d.coefficient := by
  unfold dropZeroSign abs
  split <;> rfl

@[simp] theorem scale_dropZeroSign (d : Decimal) : d.dropZeroSign.scale = d.scale := by
  unfold dropZeroSign abs
  split <;> rfl

/-- Of the sign, as much is left as the value shows. -/
theorem negative_dropZeroSign (d : Decimal) :
    d.dropZeroSign.negative = (d.negative && d.coefficient != 0) := by
  unfold dropZeroSign isZero abs
  by_cases hzero : d.coefficient = 0
  · simp [hzero]
  · simp [hzero]

/-- Only a zero with a sign is changed. -/
theorem dropZeroSign_eq_self_iff {d : Decimal} : d.dropZeroSign = d ↔ d.HasPlainZero := by
  unfold dropZeroSign HasPlainZero
  split
  · rename_i hzero
    constructor
    · intro heq _
      rw [← heq]
      rfl
    · intro hplain
      rw [abs, ← hplain hzero]
  · rename_i hzero
    exact iff_of_true rfl fun h => absurd h hzero

theorem HasPlainZero.dropZeroSign_eq {d : Decimal} (h : d.HasPlainZero) : d.dropZeroSign = d :=
  dropZeroSign_eq_self_iff.2 h

theorem hasPlainZero_dropZeroSign (d : Decimal) : d.dropZeroSign.HasPlainZero := by
  intro hzero
  rw [isZero, coefficient_dropZeroSign, beq_iff_eq] at hzero
  rw [negative_dropZeroSign, hzero]
  simp

/-! ### Digits -/

/-- A digit is neither a point nor a separator. -/
theorem ne_of_isDigit {ch : Char} (h : ch.isDigit = true) : ch ≠ '.' ∧ ch ≠ '_' := by
  constructor <;>
    · rintro rfl
      exact absurd h (by decide)

/-- **Digits that there is room for** are read as they stand. -/
theorem readDigits_append {ds rest : List Char} {c s m : Nat} {point : Bool}
    (hvalue : valueFrom? 10 c ds = some m) (hm : m ≤ maxCoefficient)
    (hscale : point = true → s + ds.length ≤ maxScale) (hrest : rest.head? ≠ some '_')
    (seen : Bool) :
    readDigits c s point seen (ds ++ rest)
      = readDigits m (if point then s + ds.length else s) point (seen || !ds.isEmpty) rest := by
  induction ds generalizing c s seen with
  | nil =>
    obtain rfl := Option.some.inj hvalue
    simp
  | cons ch ds ih =>
    obtain ⟨v, hv, hvalue⟩ := valueFrom?_cons_eq_some_iff.1 hvalue
    obtain ⟨hpoint, hseparator⟩ := ne_of_isDigit (isDigit_of_digitValue? hv)
    have hroom : c * 10 + v ≤ maxCoefficient ∧ (point = true → s < maxScale) :=
      ⟨Nat.le_trans (le_of_valueFrom? (by decide) hvalue) hm, fun h => by
        have hle := hscale h
        rw [List.length_cons] at hle
        omega⟩
    -- What follows is another digit, or what stands behind all digits.
    have hnext : (ds ++ rest).head? ≠ some '_' := by
      cases ds with
      | nil => exact hrest
      | cons ch' ds =>
        obtain ⟨_, hv', _⟩ := valueFrom?_cons_eq_some_iff.1 hvalue
        exact fun h => (ne_of_isDigit (isDigit_of_digitValue? hv')).2 (Option.some.inj h)
    have hlater : point = true → (if point then s + 1 else s) + ds.length ≤ maxScale := by
      intro h
      have hle := hscale h
      rw [List.length_cons] at hle
      rw [if_pos h]
      omega
    rw [List.cons_append, readDigits, if_neg hpoint, if_neg hseparator, hv]
    dsimp only
    rw [if_pos hroom, if_neg (fun h => hnext h.2.2), ih hvalue hlater]
    cases point <;> simp [Nat.add_assoc, Nat.add_comm 1]

/-! ### Digits and points -/

/-- That there was a digit before does not matter where another one follows. -/
theorem readDigits_seen {cs : List Char} (hcs : ∀ ch ∈ cs, ch.isDigit = true ∨ ch = '.')
    (hdigit : ∃ ch ∈ cs, ch.isDigit = true) (c s : Nat) (point : Bool) :
    readDigits c s point true cs = readDigits c s point false cs := by
  induction cs generalizing point with
  | nil =>
    obtain ⟨ch, hch, _⟩ := hdigit
    cases hch
  | cons ch rest ih =>
    rw [List.forall_mem_cons] at hcs
    rcases hcs.1 with hfirst | rfl
    · rw [readDigits, readDigits, if_neg (ne_of_isDigit hfirst).1, if_neg (ne_of_isDigit hfirst).1,
        if_neg (ne_of_isDigit hfirst).2, if_neg (ne_of_isDigit hfirst).2]
    · have hlater : ∃ ch ∈ rest, ch.isDigit = true := by
        obtain ⟨ch, hch, hdigit⟩ := hdigit
        rcases List.mem_cons.1 hch with rfl | hmem
        · exact absurd hdigit (by decide)
        · exact ⟨ch, hmem, hdigit⟩
      rw [readDigits, readDigits, if_pos rfl, if_pos rfl, ih hcs.2 hlater]

/-- A zero in front of a digit is not seen. -/
theorem readDigits_zero_cons {cs : List Char} (hcs : ∀ ch ∈ cs, ch.isDigit = true ∨ ch = '.')
    (hdigit : ∃ ch ∈ cs, ch.isDigit = true) :
    readDigits 0 0 false false ('0' :: cs) = readDigits 0 0 false false cs := by
  have hzero : digitValue? 10 '0' = some 0 := by decide
  have hroom : 0 * 10 + 0 ≤ maxCoefficient ∧ (false = true → 0 < maxScale) :=
    ⟨Nat.zero_le _, fun h => absurd h (by decide)⟩
  rw [← readDigits_seen hcs hdigit, readDigits, if_neg (by decide), if_neg (by decide), hzero]
  dsimp only
  rw [if_pos hroom, if_neg (fun h => absurd h.1 (by decide))]
  rfl

/-- A point behind all digits is not seen. -/
theorem readDigits_concat_point {cs : List Char} (hcs : ∀ ch ∈ cs, ch.isDigit = true) (c : Nat)
    (seen : Bool) :
    readDigits c 0 false seen (cs ++ ['.']) = readDigits c 0 false seen cs := by
  induction cs generalizing c seen with
  | nil => rfl
  | cons ch rest ih =>
    rw [List.forall_mem_cons] at hcs
    have hplace : ∀ next : Option Char, ¬ (0 = maxScale ∧ c < wideCoefficient ∧ next = some '_') :=
      fun next h => absurd h.1 (by decide)
    rw [List.cons_append, readDigits, readDigits, if_neg (ne_of_isDigit hcs.1).1,
      if_neg (ne_of_isDigit hcs.1).1, if_neg (ne_of_isDigit hcs.1).2,
      if_neg (ne_of_isDigit hcs.1).2]
    -- Before the point there is no place to round at.
    simp only [Bool.false_eq_true, if_false, hplace, Bool.false_and, ih hcs.2]

/-- What is made of digits and points has no sign to be read. -/
theorem parse?_of_numerals {cs : List Char} (hcs : ∀ ch ∈ cs, ch.isDigit = true ∨ ch = '.') :
    parse? cs = ofUnsigned? false cs := by
  unfold parse?
  split
  · exact absurd (hcs '-' List.mem_cons_self) (by decide)
  · exact absurd (hcs '+' List.mem_cons_self) (by decide)
  · rfl

theorem parse?_zero_cons {cs : List Char} (hcs : ∀ ch ∈ cs, ch.isDigit = true ∨ ch = '.')
    (hdigit : ∃ ch ∈ cs, ch.isDigit = true) : parse? ('0' :: cs) = parse? cs := by
  have hall : ∀ ch ∈ '0' :: cs, ch.isDigit = true ∨ ch = '.' :=
    List.forall_mem_cons.2 ⟨.inl (by decide), hcs⟩
  rw [parse?_of_numerals hall, parse?_of_numerals hcs, ofUnsigned?, ofUnsigned?,
    readDigits_zero_cons hcs hdigit]

theorem parse?_concat_point {cs : List Char} (hcs : ∀ ch ∈ cs, ch.isDigit = true) :
    parse? (cs ++ ['.']) = parse? cs := by
  have hnumerals : ∀ ch ∈ cs, ch.isDigit = true ∨ ch = '.' := fun ch hch => .inl (hcs ch hch)
  have hall : ∀ ch ∈ cs ++ ['.'], ch.isDigit = true ∨ ch = '.' :=
    List.forall_mem_append.2 ⟨hnumerals, by simp⟩
  rw [parse?_of_numerals hall, parse?_of_numerals hnumerals, ofUnsigned?, ofUnsigned?,
    readDigits_concat_point hcs]

/-- What is read without a sign has none. -/
theorem negative_of_ofUnsigned? {cs : List Char} {d : Decimal} (h : ofUnsigned? false cs = some d) :
    d.negative = false := by
  rw [ofUnsigned?, Option.bind_eq_bind, Option.bind_eq_some_iff] at h
  obtain ⟨_, _, hparts⟩ := h
  exact (ofParts?_spec hparts).1

/-! ### The written form -/

/-- The written form without the sign. -/
def unsignedForm (d : Decimal) : List Char :=
  digits (d.coefficient / pow10 d.scale) ++
    if d.scale = 0 then [] else '.' :: fixedDigits 10 d.scale (d.coefficient % pow10 d.scale)

theorem render_eq (d : Decimal) :
    d.render = (if d.negative then ['-'] else []) ++ d.unsignedForm := by
  rw [render, unsignedForm, List.append_assoc]

/-- The digits give the coefficient, and those behind the point give the scale. -/
theorem readDigits_unsignedForm (d : Decimal) :
    readDigits 0 0 false false d.unsignedForm = some (d.coefficient, d.scale) := by
  have hwhole : valueFrom? 10 0 (digits (d.coefficient / pow10 d.scale))
      = some (d.coefficient / pow10 d.scale) := value?_digits _
  have hle : d.coefficient / pow10 d.scale ≤ maxCoefficient :=
    Nat.le_trans (Nat.div_le_self _ _) d.coefficient_le
  have hnonempty : (digits (d.coefficient / pow10 d.scale)).isEmpty = false :=
    List.isEmpty_eq_false_iff.2 (digits_ne_nil _)
  unfold unsignedForm
  split
  · rename_i hscale
    rw [readDigits_append hwhole hle (fun h => absurd h (by decide)) (by decide), hnonempty, hscale]
    simp [readDigits]
  · -- The fractional digits are the rest of the coefficient, filled up to the scale.
    let fraction := fixedDigits 10 d.scale (d.coefficient % pow10 d.scale)
    have hplaces : fraction.length = d.scale := length_fixedDigits ..
    have hfraction : valueFrom? 10 (d.coefficient / pow10 d.scale) fraction
        = some d.coefficient := by
      rw [valueFrom?_fixedDigits (by decide) (by decide)]
      have hmod : d.coefficient % pow10 d.scale % 10 ^ d.scale = d.coefficient % pow10 d.scale :=
        Nat.mod_mod _ _
      rw [hmod]
      exact congrArg some (Nat.div_add_mod' _ _)
    have hpoint : ('.' :: fraction).head? ≠ some '_' := by
      rw [List.head?_cons]
      decide
    have hread : readDigits (d.coefficient / pow10 d.scale) 0 true true (fraction ++ [])
        = some (d.coefficient, d.scale) := by
      rw [readDigits_append hfraction d.coefficient_le (fun _ => ?_) (by decide), hplaces]
      · simp [readDigits]
      · rw [hplaces, Nat.zero_add]
        exact d.scale_le
    rw [readDigits_append hwhole hle (fun h => absurd h (by decide)) hpoint, hnonempty, readDigits,
      if_pos rfl, ← List.append_nil fraction]
    exact hread

/-- Read without its sign, the written form gives the decimal, where a zero takes no sign. -/
theorem ofUnsigned?_unsignedForm (d : Decimal) :
    ofUnsigned? d.negative d.unsignedForm = some d.dropZeroSign := by
  have hparts : ofParts? (d.negative && d.coefficient != 0) d.coefficient d.scale
      = some d.dropZeroSign := by
    rw [← negative_dropZeroSign, ← coefficient_dropZeroSign, ← scale_dropZeroSign]
    exact dif_pos ⟨d.dropZeroSign.coefficient_le, d.dropZeroSign.scale_le⟩
  rw [ofUnsigned?, readDigits_unsignedForm]
  exact hparts

/-- The written form without the sign starts with a digit. -/
theorem head?_unsignedForm (d : Decimal) :
    ∃ c, d.unsignedForm.head? = some c ∧ c.isDigit = true := by
  obtain ⟨c, cs, hdigits⟩ :=
    List.exists_cons_of_ne_nil (digits_ne_nil (d.coefficient / pow10 d.scale))
  refine ⟨c, ?_, isDigit_of_mem_digits (n := d.coefficient / pow10 d.scale) ?_⟩
  · rw [unsignedForm, hdigits]
    rfl
  · rw [hdigits]
    exact List.mem_cons_self

/-- **The written form is read as the same decimal**, but for the sign of a zero. -/
theorem parse?_render (d : Decimal) : parse? d.render = some d.dropZeroSign := by
  rw [render_eq, ← ofUnsigned?_unsignedForm]
  cases hsign : d.negative with
  | true => rfl
  | false =>
    obtain ⟨c, hc, hdigit⟩ := d.head?_unsignedForm
    -- A digit is none of the two signs.
    obtain ⟨cs, hform⟩ : ∃ cs, d.unsignedForm = c :: cs := List.head?_eq_some_iff.1 hc
    rw [hform]
    unfold parse?
    split
    · rename_i heq
      obtain ⟨rfl, _⟩ := List.cons.inj heq
      exact absurd hdigit (by decide)
    · rename_i heq
      obtain ⟨rfl, _⟩ := List.cons.inj heq
      exact absurd hdigit (by decide)
    · rfl

theorem readText?_toString (d : Decimal) : readText? d.toString = some d.dropZeroSign := by
  rw [readText?, Decimal.toString, String.toList_ofList, parse?_render]
  rfl

end Decimal

end Payroll
