import Payroll.Proofs.Decimal.Quotient
import Payroll.Proofs.Line.Recorded

namespace Payroll

/-!
# Percentages

A percentage is a product and a quotient, and what it pays is rounded to cents.  The product and the
quotient are rounded where there is no room for all of their digits, and only there.

* `Rule.TakenOf`, `Rule.takenOf_iff` — the number that a percentage is taken of.
* `Rule.map_value_percentOf` — a percentage in terms of the exact product and the exact quotient.
* `Rule.fits_of_short` — few fractional digits leave room for both.
* `Concept.pay_percentage` — **where there is room for both**, a percentage pays the nearest
  number of cents.
-/

open Decimal

namespace Rule

variable {vars : Variables} {base : ℚ}

/-! ### What percentages are taken of -/

/-- The number that a percentage is taken of: the total of earnings if there is one and it is
    positive, the basic salary otherwise, and nothing if there is no salary. -/
inductive TakenOf (vars : Variables) : ℚ → Prop
  | total {total : Decimal} (known : vars.get? Variables.totalEarnings = some total)
      (pos : 0 < total.value) :
      TakenOf vars total.value
  | salary {salary : Decimal}
      (unsettled : ∀ total, vars.get? Variables.totalEarnings = some total → total.value ≤ 0)
      (known : vars.get? Variables.basicSalary = some salary) : TakenOf vars salary.value
  | nothing (unsettled : ∀ total, vars.get? Variables.totalEarnings = some total → total.value ≤ 0)
      (unknown : vars.get? Variables.basicSalary = none) : TakenOf vars 0

theorem percentageBase_of_pos {total : Decimal}
    (known : vars.get? Variables.totalEarnings = some total) (pos : 0 < total.value) :
    percentageBase vars = total := by
  have hpos : Decimal.zero < total := by rwa [lt_iff_value_lt, value_zero]
  rw [percentageBase, known]
  exact if_pos hpos

theorem percentageBase_of_unsettled
    (unsettled : ∀ total, vars.get? Variables.totalEarnings = some total → total.value ≤ 0) :
    percentageBase vars = (vars.get? Variables.basicSalary).getD .zero := by
  unfold percentageBase
  cases htotal : vars.get? Variables.totalEarnings with
  | none => rfl
  | some total =>
    refine if_neg ?_
    rw [lt_iff_value_lt, value_zero]
    exact not_lt.2 (unsettled total htotal)

/-- **There is one such number**, and it is the one that the rule is given. -/
theorem takenOf_iff : TakenOf vars base ↔ base = (percentageBase vars).value := by
  constructor
  · rintro (⟨known, pos⟩ | ⟨unsettled, known⟩ | ⟨unsettled, unknown⟩)
    · rw [percentageBase_of_pos known pos]
    · rw [percentageBase_of_unsettled unsettled, known, Option.getD_some]
    · rw [percentageBase_of_unsettled unsettled, unknown, Option.getD_none, value_zero]
  · rintro rfl
    by_cases hpos : ∃ total, vars.get? Variables.totalEarnings = some total ∧ 0 < total.value
    · obtain ⟨total, known, pos⟩ := hpos
      rw [percentageBase_of_pos known pos]
      exact .total known pos
    · have unsettled : ∀ total, vars.get? Variables.totalEarnings = some total → total.value ≤ 0 :=
        fun total known => not_lt.1 fun pos => hpos ⟨total, known, pos⟩
      rw [percentageBase_of_unsettled unsettled]
      cases hsalary : vars.get? Variables.basicSalary with
      | some salary => exact .salary unsettled hsalary
      | none =>
        rw [Option.getD_none, value_zero]
        exact .nothing unsettled hsalary

/-! ### Percentages of numbers -/

/-- What a percentage comes to is the option that it is made of. -/
theorem toOption_evaluate?_percentage (rate : Option Decimal) (vars : Variables) :
    ((percentage rate).evaluate? vars).toOption
      = percentOf (rate.getD .zero) (percentageBase vars) := by
  rw [evaluate?]
  cases percentOf (rate.getD .zero) (percentageBase vars) <;> rfl

/-- A percentage is a product and a quotient, each rounded once: one hundred is too short a divisor
    to tie up. -/
theorem map_value_percentOf (rate base : Decimal) :
    (percentOf rate base).map value
      = (nearest? (base.value * rate.value)).bind fun p => nearest? (p / hundred.value) := by
  have hshort : ∀ a : Decimal, ¬ a.TiesUp hundred := fun a h => absurd h.1 (by decide)
  rw [← map_value_mul, percentOf]
  cases base.mul rate with
  | none => rfl
  | some product => exact map_value_div rfl (hshort product)

/-- **A percentage is exact** if there is room for the product and for the quotient. -/
theorem percentOf_of_fits {rate base : Decimal} (hproduct : Fits (base.value * rate.value))
    (hquotient : Fits (base.value * rate.value / 100)) :
    ∃ d, percentOf rate base = some d ∧ d.value = base.value * rate.value / 100 := by
  have hhundred : hundred.value = 100 := by
    rw [value_eq_div]
    norm_num [hundred, signed]
  have hexact := map_value_percentOf rate base
  rw [nearest?_of_fits hproduct, Option.bind_some, hhundred, nearest?_of_fits hquotient,
    Option.map_eq_some_iff] at hexact
  exact hexact

/-- Two fractional digits of a base and ten of a rate leave room for both, if there is room for the
    product without the point. -/
theorem fits_of_short {m n : ℤ} {i j : Nat} (hi : i ≤ 2) (hj : j ≤ 10)
    (hmn : (m * n).natAbs ≤ maxCoefficient) :
    Fits (m / pow10 i * (n / pow10 j)) ∧ Fits (m / pow10 i * (n / pow10 j) / 100) := by
  have hproduct : (m / pow10 i * (n / pow10 j) : ℚ) = (m * n : ℤ) / pow10 (i + j) := by
    rw [div_mul_div_comm, Int.cast_mul, ← Nat.cast_mul, ← pow10_add]
  have hquotient : ((m * n : ℤ) / pow10 (i + j) / 100 : ℚ) = (m * n : ℤ) / pow10 (i + j + 2) := by
    rw [pow10_add (i + j) 2, Nat.cast_mul, div_div]
    rfl
  rw [hproduct, hquotient]
  have hplaces : i + j + 2 ≤ maxScale := by unfold maxScale; omega
  exact ⟨fits_iff.2 ⟨m * n, i + j, hmn, by omega, rfl⟩,
    fits_iff.2 ⟨m * n, i + j + 2, hmn, hplaces, rfl⟩⟩

end Rule

/-! ### What percentages pay -/

/-- **A percentage is rounded once.**  Let its base be the total of earnings if that is known and
    positive, the basic salary otherwise, and zero without one.  If there is room for the exact
    product with the rate and for the hundredth part of it, the concept has just that part as its
    value and pays the number of cents nearest to it, ties away from zero, or nothing if it is
    negative.  There is room if the base has two fractional digits or fewer and the rate ten, and
    their product without the point is within bounds. -/
theorem Concept.pay_percentage {c : Concept} {rate : Option Decimal} {vars : Variables} {base : ℚ}
    (hrule : c.rule = .percentage rate) (hbase : Rule.TakenOf vars base) :
    let part := base * (rate.getD .zero).value / 100
    (Fits (base * (rate.getD .zero).value) → Fits part →
      (∃ d, c.evaluate? vars = .ok d ∧ d.value = part) ∧
        (roundMoney (c.amount vars)).value
          = if part < 0 then 0 else (nearestCents part / 100 : ℚ)) ∧
    ∀ (m n : ℤ) (i j : Nat), base = m / pow10 i → i ≤ 2 → (rate.getD .zero).value = n / pow10 j →
      j ≤ 10 →
      (m * n).natAbs ≤ maxCoefficient → Fits (base * (rate.getD .zero).value) ∧ Fits part := by
  intro part
  constructor
  · intro hproduct hquotient
    obtain rfl := Rule.takenOf_iff.1 hbase
    obtain ⟨d, hd, hvalue⟩ := Rule.percentOf_of_fits hproduct hquotient
    have heval : c.evaluate? vars = .ok d := by
      rw [evaluate?, hrule, Rule.evaluate?, hd]
    refine ⟨⟨d, heval, hvalue⟩, ?_⟩
    rw [value_roundMoney, value_amount, heval]
    change (nearestCents (max 0 d.value) / 100 : ℚ) = _
    rw [hvalue]
    change (nearestCents (max 0 part) / 100 : ℚ) = _
    -- A negative part is raised to zero before it is rounded.
    split
    · rename_i hneg
      rw [max_eq_left hneg.le]
      simp [nearestCents]
    · rename_i hneg
      rw [max_eq_right (not_lt.1 hneg)]
  · rintro m n i j rfl hi hrate hj hmn
    have hfits := Rule.fits_of_short hi hj hmn
    rwa [← hrate] at hfits

/-- Twelve and a half percent of 1000.04 are 125.005, half way between two cents, and
    125.01 is paid. -/
theorem Concept.pay_percentage_tie :
    let salary : Decimal := ⟨false, 100004, 2, by decide, by decide⟩
    let rate : Decimal := ⟨false, 125, 1, by decide, by decide⟩
    let bonus : Concept := ⟨"c1", "BONUS", "Bonus", .earning, .percentage (some rate), 1, .active⟩
    (roundMoney (bonus.amount (Table.empty.set Variables.basicSalary salary))).value
      = 12501 / 100 := by
  intro salary rate bonus
  have hbase : Rule.TakenOf (Table.empty.set Variables.basicSalary salary) salary.value := by
    refine .salary (fun total known => ?_) (by decide)
    have hnone : (Table.empty.set Variables.basicSalary salary).get? Variables.totalEarnings
      = none := by decide
    rw [hnone] at known
    cases known
  have hsalary : salary.value = (100004 : ℤ) / pow10 2 := value_eq_div salary
  have hrate : rate.value = (125 : ℤ) / pow10 1 := value_eq_div rate
  obtain ⟨hpay, hshort⟩ := pay_percentage (c := bonus) rfl hbase
  obtain ⟨hproduct, hpart⟩ :=
    hshort 100004 125 2 1 hsalary (by decide) hrate (by decide) (by decide)
  have hcents : nearestCents (salary.value * rate.value / 100) = 12501 := by
    rw [hsalary, hrate]
    decide +kernel
  have hpositive : ¬ salary.value * rate.value / 100 < 0 := by
    rw [hsalary, hrate]
    decide +kernel
  refine (hpay hproduct hpart).2.trans ((if_neg hpositive).trans ?_)
  change (nearestCents (salary.value * rate.value / 100) / 100 : ℚ) = 12501 / 100
  rw [hcents]
  rfl

end Payroll
