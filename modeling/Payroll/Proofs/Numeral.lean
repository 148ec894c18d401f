import Mathlib.Algebra.Order.Ring.Nat
import Mathlib.Data.List.Induction
import Mathlib.Tactic.Ring
import Payroll.Numeral

namespace Payroll.Numeral

/-!
# Numerals are read back

A number is written with as many digits as it needs, or with a given number of digits.  Either way
the digits stand for it.

* `valueFrom?` — digits that are read behind a number, as texts of several parts are read.
* `digitValue?_digitChar` — a digit is read back.
* `valueFrom?_fixedDigits`, `value?_digits` — **numbers are read back**, with zeros in front of them
  (`value?_zeros_append`) or without.
* `fixedDigits_of_value?` — and nothing else is read as a number of so many digits.
* `isDigit_of_mem_digits`, `isDigit_of_mem_fixedDigits` — nothing but digits is written.
-/

/-! ### Digits -/

/-- A digit is read back. -/
theorem digitValue?_digitChar {base d : Nat} (hd : d < base) (hbase : base ≤ 16) :
    digitValue? base (digitChar d) = some d := by
  have hall : ∀ base ≤ 16, ∀ d < base, digitValue? base (digitChar d) = some d := by decide
  exact hall base hbase d hd

/-- What has a value in base ten is a digit. -/
theorem isDigit_of_digitValue? {c : Char} {v : Nat} (h : digitValue? 10 c = some v) :
    c.isDigit = true := by
  by_contra hnot
  -- A letter counts for ten at least, and any other character for the base.
  have hlarge : ¬ (if 'a' ≤ c ∧ c ≤ 'f' then c.toNat - 'a'.toNat + 10
      else if 'A' ≤ c ∧ c ≤ 'F' then c.toNat - 'A'.toNat + 10 else 10) < 10 := by
    split
    · omega
    · split <;> omega
  simp only [digitValue?, if_neg hnot, if_neg hlarge] at h
  cases h

theorem isDigit_digitChar {d : Nat} (hd : d < 10) : (digitChar d).isDigit = true :=
  isDigit_of_digitValue? (digitValue?_digitChar hd (by decide))

/-- A digit in base ten is the character of its value. -/
theorem digitChar_of_digitValue? {c : Char} {v : Nat} (h : digitValue? 10 c = some v) :
    digitChar v = c ∧ v < 10 := by
  have hdigit := isDigit_of_digitValue? h
  have hrange : 48 ≤ c.toNat ∧ c.toNat ≤ 57 := Char.isDigit_iff_toNat.1 hdigit
  have hsmall : c.toNat - '0'.toNat < 10 := by
    change c.toNat - 48 < 10
    omega
  simp only [digitValue?, if_pos hdigit, if_pos hsmall, Option.some.injEq] at h
  subst h
  refine ⟨?_, hsmall⟩
  have hcode : '0'.toNat + (c.toNat - '0'.toNat) = c.toNat := Nat.add_sub_cancel' hrange.1
  rw [digitChar, if_pos hsmall, hcode, Char.ofNat_toNat]

/-! ### Numbers -/

/-- The number that the digits stand for behind a number. -/
def valueFrom? (base n : Nat) (cs : List Char) : Option Nat :=
  cs.foldlM (fun n c => (digitValue? base c).map (n * base + ·)) n

theorem value?_eq (base : Nat) (cs : List Char) : value? base cs = valueFrom? base 0 cs := rfl

variable {base n m v : Nat} {c : Char} {cs ds : List Char}

theorem valueFrom?_cons (h : digitValue? base c = some v) :
    valueFrom? base n (c :: cs) = valueFrom? base (n * base + v) cs := by
  rw [valueFrom?, List.foldlM_cons, h]
  rfl

theorem valueFrom?_append (h : valueFrom? base n cs = some m) :
    valueFrom? base n (cs ++ ds) = valueFrom? base m ds := by
  rw [valueFrom?, List.foldlM_append, show cs.foldlM _ n = some m from h]
  rfl

/-- The first digit of a number, and the rest behind it. -/
theorem valueFrom?_cons_eq_some_iff :
    valueFrom? base n (c :: cs) = some m ↔
      ∃ v, digitValue? base c = some v ∧ valueFrom? base (n * base + v) cs = some m := by
  cases hv : digitValue? base c with
  | none => simp [valueFrom?, hv]
  | some v => simp [valueFrom?_cons hv]

/-- Digits never make a number smaller. -/
theorem le_of_valueFrom? (hbase : 1 ≤ base) (h : valueFrom? base n cs = some m) : n ≤ m := by
  induction cs generalizing n with
  | nil => exact (Option.some.inj h).le
  | cons c cs ih =>
    obtain ⟨v, _, hrest⟩ := valueFrom?_cons_eq_some_iff.1 h
    calc n = n * 1 := (Nat.mul_one n).symm
      _ ≤ n * base := Nat.mul_le_mul_left n hbase
      _ ≤ n * base + v := Nat.le_add_right ..
      _ ≤ m := ih hrest

/-- **So many digits are read back** as what the number is without its higher digits. -/
theorem valueFrom?_fixedDigits (hbase : base ≤ 16) (hpos : 0 < base) (n width m : Nat) :
    valueFrom? base n (fixedDigits base width m) = some (n * base ^ width + m % base ^ width) := by
  induction width generalizing m with
  | zero => simp [fixedDigits, valueFrom?, Nat.mod_one]
  | succ width ih =>
    rw [fixedDigits, valueFrom?_append (ih (m / base)),
      valueFrom?_cons (digitValue?_digitChar (Nat.mod_lt m hpos) hbase)]
    have hsplit : m % base ^ (width + 1) = m / base % base ^ width * base + m % base := by
      rw [Nat.pow_succ', Nat.mod_mul, Nat.mul_comm, Nat.add_comm]
    rw [hsplit]
    exact congrArg some (by ring)

/-- A number is read back if there are digits enough for it. -/
theorem value?_fixedDigits (hbase : base ≤ 16) {width : Nat} (h : m < base ^ width)
    (hpos : 0 < base) :
    value? base (fixedDigits base width m) = some m := by
  rw [value?_eq, valueFrom?_fixedDigits hbase hpos, Nat.zero_mul, Nat.zero_add, Nat.mod_eq_of_lt h]

/-- **What is read as a number** are its digits, as many as there are. -/
theorem fixedDigits_of_value? (h : value? 10 cs = some m) :
    fixedDigits 10 cs.length m = cs ∧ m < 10 ^ cs.length := by
  induction cs using List.reverseRecOn generalizing m with
  | nil =>
    obtain rfl := Option.some.inj h
    exact ⟨rfl, Nat.one_pos⟩
  | append_singleton cs c ih =>
    rw [value?, List.foldlM_append, Option.bind_eq_bind, Option.bind_eq_some_iff] at h
    obtain ⟨n, hn, hlast⟩ := h
    obtain ⟨v, hv, hrest⟩ := valueFrom?_cons_eq_some_iff.1 hlast
    obtain rfl := Option.some.inj hrest
    obtain ⟨hdigits, hbound⟩ := ih hn
    obtain ⟨hchar, hsmall⟩ := digitChar_of_digitValue? hv
    rw [List.length_append, List.length_singleton, fixedDigits, Nat.pow_succ]
    have hdiv : (n * 10 + v) / 10 = n := by omega
    have hmod : (n * 10 + v) % 10 = v := by omega
    rw [hdiv, hmod, hdigits, hchar]
    exact ⟨rfl, by omega⟩

/-- **Digits without leading zeros** are read back. -/
theorem value?_digits (n : Nat) : value? 10 (digits n) = some n := by
  induction n using Nat.strongRecOn with
  | _ n ih =>
    have hlast : digitValue? 10 (digitChar (n % 10)) = some (n % 10) :=
      digitValue?_digitChar (Nat.mod_lt n (by decide)) (by decide)
    rw [value?_eq, digits]
    split
    · rename_i hsmall
      rw [Nat.mod_eq_of_lt hsmall] at hlast
      rw [valueFrom?_cons hlast, Nat.zero_mul, Nat.zero_add]
      rfl
    · rename_i hlarge
      rw [valueFrom?_append (ih (n / 10) (by omega)), valueFrom?_cons hlast]
      exact congrArg some (Nat.div_add_mod' n 10)

/-- Leading zeros do not change the number. -/
theorem value?_zeros_append (k n : Nat) :
    value? 10 (List.replicate k '0' ++ digits n) = some n := by
  have hzeros : valueFrom? 10 0 (List.replicate k '0') = some 0 := by
    induction k with
    | zero => rfl
    | succ k ih => exact (valueFrom?_cons (v := 0) (by decide)).trans ih
  rw [value?_eq, valueFrom?_append hzeros]
  exact value?_digits n

/-! ### What is written -/

theorem isDigit_of_mem_digits (h : c ∈ digits n) : c.isDigit = true := by
  induction n using Nat.strongRecOn with
  | _ n ih =>
    rw [digits] at h
    split at h
    · rename_i hsmall
      exact List.mem_singleton.1 h ▸ isDigit_digitChar hsmall
    · rename_i hlarge
      rcases List.mem_append.1 h with hhead | hlast
      · exact ih (n / 10) (by omega) hhead
      · exact List.mem_singleton.1 hlast ▸ isDigit_digitChar (Nat.mod_lt n (by decide))

theorem isDigit_of_mem_zeros_append {k : Nat} (h : c ∈ List.replicate k '0' ++ digits n) :
    c.isDigit = true := by
  rcases List.mem_append.1 h with hzero | hdigit
  · obtain rfl := List.eq_of_mem_replicate hzero
    decide
  · exact isDigit_of_mem_digits hdigit

theorem isDigit_of_mem_fixedDigits {width : Nat} (h : c ∈ fixedDigits 10 width n) :
    c.isDigit = true := by
  induction width generalizing n with
  | zero => cases h
  | succ width ih =>
    rcases List.mem_append.1 h with hhead | hlast
    · exact ih hhead
    · exact List.mem_singleton.1 hlast ▸ isDigit_digitChar (Nat.mod_lt n (by decide))

theorem digits_ne_nil (n : Nat) : digits n ≠ [] := by
  rw [digits]
  split
  · exact List.cons_ne_nil _ _
  · exact List.append_ne_nil_of_right_ne_nil _ (List.cons_ne_nil _ _)

end Payroll.Numeral
