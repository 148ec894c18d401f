import Payroll.Proofs.Formula.Restatement
import Payroll.Proofs.Line.Percentage

namespace Payroll

/-!
# Lines over numbers written in another way

The policy, the plan and the worker hold decimals.  Written with more zeros at the end or fewer,
they give the same line, as long as the formulas are steady.

* `Worker.Restates`, `EngineConfig.Restates`, `ConceptPlan.Restates` — inputs that are the same
  but for how their numbers are written, and `Line.Restates`, lines that are the same but for how
  the salary is.
* `Concept.pay_restate` — a concept pays the same amount, written in the same way.
* `Phase.record_congr` — what a phase records depends on what its concepts pay.
* `Line.Steady` — the formulas of a plan are steady under the variables that they are evaluated
  with.
* `Line.compute_restate` — **restated inputs give restated lines**, or the salary is out of
  bounds for both.
* `Line.compute_depends_on_scale` — formulas that are not steady can pay different amounts.
-/

open Decimal

/-! ### Restated inputs -/

/-- The same worker, but for how the salary is written. -/
def Worker.Restates (w w' : Worker) : Prop :=
  ∃ salary, w.basicSalary.value = salary.value ∧ w' = { w with basicSalary := salary }

/-- Default values of the same size. -/
structure ContextDefaults.Restates (d d' : ContextDefaults) : Prop where
  workedDays : d.workedDays.value = d'.workedDays.value
  overtimeHours : d.overtimeHours.value = d'.overtimeHours.value
  absenceDays : d.absenceDays.value = d'.absenceDays.value
  extra : d.extra.Restates d'.extra

/-- Policies with multipliers and default values of the same size.  When a roster counts as large
    has no part in a line. -/
structure EngineConfig.Restates (config config' : EngineConfig) : Prop where
  multipliers : config.multipliers.Restates config'.multipliers
  defaults : config.defaults.Restates config'.defaults

/-- The same rule, but for how its amount or rate is written. -/
inductive Rule.Restates : Rule → Rule → Prop
  | fixed {amount amount' : Option Decimal} (h : amount.map value = amount'.map value) :
      Restates (.fixed amount) (.fixed amount')
  | percentage {rate rate' : Option Decimal} (h : rate.map value = rate'.map value) :
      Restates (.percentage rate) (.percentage rate')
  | formula {text : String} : Restates (.formula text) (.formula text)
  | manual : Restates .manual .manual

/-- The same concept, but for how the numbers of its rule are written. -/
def Concept.Restates (c c' : Concept) : Prop :=
  ∃ rule, c.rule.Restates rule ∧ c' = { c with rule := rule }

/-- The same concepts in the same order, but for how their numbers are written. -/
def ConceptPlan.Restates (plan plan' : ConceptPlan) : Prop :=
  ∀ t, List.Forall₂ Concept.Restates (plan.ofType t) (plan'.ofType t)

/-- The same line, but for how the salary is written. -/
def Line.Restates (line line' : Line) : Prop :=
  ∃ salary, line.basicSalary.value = salary.value ∧ line' = { line with basicSalary := salary }

/-! ### Concepts -/

section

variable {vars vars' : Variables}

/-- A percentage is taken of the same number. -/
theorem Rule.percentageBase_restate (h : vars.Restates vars') :
    (percentageBase vars).value = (percentageBase vars').value := by
  have hsalary := value_getD_congr (h Variables.basicSalary) (rfl : zero.value = zero.value)
  unfold percentageBase
  cases htotal : vars.get? Variables.totalEarnings with
  | none =>
    have hnone := h Variables.totalEarnings
    rw [htotal, Option.map_none, eq_comm, Option.map_eq_none_iff] at hnone
    rw [hnone]
    exact hsalary
  | some total =>
    obtain ⟨total', htotal', hvalue⟩ := h.exists_value htotal
    rw [htotal']
    simp only [lt_iff_value_lt, hvalue]
    split
    · exact hvalue
    · exact hsalary

/-- The formula of a rule, if it has one, is steady. -/
def Rule.Steady (rule : Rule) (vars : Variables) : Prop :=
  match rule with
  | .formula text => Formula.Steady text vars
  | _ => True

instance (rule : Rule) (vars : Variables) : Decidable (rule.Steady vars) :=
  match rule with
  | .formula text => inferInstanceAs (Decidable (Formula.Steady text vars))
  | .fixed _ | .percentage _ | .manual => isTrue trivial

/-- **A restated rule** gives the same value over restated variables. -/
theorem Rule.evaluate?_restate {rule rule' : Rule} (hrule : rule.Restates rule')
    (hvars : vars.Restates vars') (hsteady : rule.Steady vars) (hsteady' : rule'.Steady vars') :
    (rule.evaluate? vars).toOption.map value = (rule'.evaluate? vars').toOption.map value := by
  cases hrule with
  | fixed h => exact congrArg some (value_getD_congr h rfl)
  | percentage h =>
    rw [toOption_evaluate?_percentage, toOption_evaluate?_percentage, map_value_percentOf,
      map_value_percentOf, value_getD_congr h rfl, percentageBase_restate hvars]
  | formula => exact Formula.evaluate?_restate hvars hsteady hsteady'
  | manual => rfl

namespace Concept

/-- **A restated concept** pays the same amount, and it is written in the same way. -/
theorem pay_restate {c c' : Concept} (h : c.Restates c') (hvars : vars.Restates vars')
    (hsteady : c.rule.Steady vars) (hsteady' : c'.rule.Steady vars') :
    c.pay vars = c'.pay vars' := by
  obtain ⟨rule, hrule, rfl⟩ := h
  refine roundMoney_congr (hasPlainZero_of_nonneg (amount_nonneg _ _))
    (hasPlainZero_of_nonneg (amount_nonneg _ _)) ?_
  rw [value_amount, value_amount]
  exact congrArg (fun q => max 0 (q.getD 0)) (Rule.evaluate?_restate hrule hvars hsteady hsteady')

end Concept

/-! ### Phases -/

/-- **What a phase records** depends on what its concepts pay and how that is recorded. -/
theorem Phase.record_congr {cs cs' : List Concept}
    (h : List.Forall₂ (fun c c' => c.pay vars = c'.pay vars' ∧ c.application = c'.application)
      cs cs')
    (total : Decimal) : record vars total cs = record vars' total cs' := by
  induction h generalizing total with
  | nil => rfl
  | @cons c c' cs cs' hone _ ih =>
    obtain ⟨hpay, happlication⟩ := hone
    rcases skips_or_takes vars total c with hskips | ⟨sum, htakes⟩
    · have hskips' : Skips vars' total c' := by
        rw [Skips, ← hpay]
        exact hskips
      rw [record_of_skips hskips, record_of_skips hskips', ih]
    · have htakes' : Takes vars' total c' sum := by
        rw [Takes, ← hpay]
        exact htakes
      rw [record_of_takes htakes, record_of_takes htakes', ih, hpay, happlication]

/-- The phase of restated concepts is the same. -/
theorem Phase.ofConcepts_restate {cs cs' : List Concept} (h : List.Forall₂ Concept.Restates cs cs')
    (hvars : vars.Restates vars') (hsteady : ∀ c ∈ cs, c.rule.Steady vars)
    (hsteady' : ∀ c ∈ cs', c.rule.Steady vars') : ofConcepts vars cs = ofConcepts vars' cs' := by
  have hsame : List.Forall₂
      (fun c c' => c.pay vars = c'.pay vars' ∧ c.application = c'.application) cs cs' := by
    induction h with
    | nil => exact .nil
    | cons hc _ ih =>
      rw [List.forall_mem_cons] at hsteady hsteady'
      refine .cons ⟨Concept.pay_restate hc hvars hsteady.1 hsteady'.1, ?_⟩ (ih hsteady.2 hsteady'.2)
      obtain ⟨rule, _, rfl⟩ := hc
      rfl
  rw [ofConcepts, ofConcepts, record_congr hsame]

end

/-! ### Lines -/

section

variable {config config' : EngineConfig} {worker worker' : Worker} {plan plan' : ConceptPlan}
  {period : Period} {salary salary' : Decimal}

/-- A worker's variables are of the same size. -/
theorem Variables.forWorker_restate (period : Period) (hconfig : config.Restates config')
    (hworker : worker.Restates worker') (hsalary : salary.value = salary'.value) :
    (forWorker worker salary period config.defaults).Restates
      (forWorker worker' salary' period config'.defaults) := by
  obtain ⟨hmultipliers, hworked, hovertime, habsence, hextra⟩ := hconfig
  obtain ⟨written, hwritten, rfl⟩ := hworker
  refine (hextra.foldl_set ?_).erase totalEarnings
  refine .cons ⟨rfl, hsalary⟩ (.cons ⟨rfl, hwritten⟩ (.cons ⟨rfl, hworked⟩ (.cons ⟨rfl, hovertime⟩
    (.cons ⟨rfl, habsence⟩ ?_))))
  -- The others are not given as decimals.
  exact List.forall₂_same.2 fun _ _ => ⟨rfl, rfl⟩

/-- Scaling a salary by a multiplier of the same size gives the same number, or nothing for both. -/
theorem EngineConfig.scaledSalary_restate (hconfig : config.Restates config')
    (hworker : worker.Restates worker') (t : PayrollType) :
    ((∃ amount, config.scaledSalary worker t = .error (.amountOutOfRange amount)) ∧
      ∃ amount, config'.scaledSalary worker' t = .error (.amountOutOfRange amount)) ∨
    ∃ salary salary', config.scaledSalary worker t = .ok salary ∧
      config'.scaledSalary worker' t = .ok salary' ∧ salary.value = salary'.value := by
  obtain ⟨written, hwritten, rfl⟩ := hworker
  have hmultiplier : (config.multiplier t).value = (config'.multiplier t).value :=
    value_getD_congr (hconfig.multipliers t) rfl
  -- A product is rounded by its exact value alone.
  have hproduct : (worker.basicSalary.mul (config.multiplier t)).map value
      = (written.mul (config'.multiplier t)).map value := by
    rw [map_value_mul, map_value_mul, hwritten, hmultiplier]
  unfold scaledSalary
  cases hscaled : worker.basicSalary.mul (config.multiplier t) with
  | none =>
    rw [hscaled, Option.map_none, eq_comm, Option.map_eq_none_iff] at hproduct
    simp only [hproduct]
    exact .inl ⟨⟨_, rfl⟩, _, rfl⟩
  | some product =>
    rw [hscaled, Option.map_some, eq_comm, Option.map_eq_some_iff] at hproduct
    obtain ⟨product', hscaled', hvalue⟩ := hproduct
    simp only [hscaled']
    refine .inr ⟨_, _, rfl, rfl, ?_⟩
    rw [value_roundMoney, value_roundMoney, hvalue]

namespace Line

/-- In the line of the worker, the formulas of the plan are steady. -/
def Steady (config : EngineConfig) (key : RunKey) (plan : ConceptPlan) (worker : Worker) : Prop :=
  ∀ salary, config.scaledSalary worker key.payrollType = .ok salary → ∀ t ∈ ConceptType.all,
    ∀ c ∈ plan.ofType t, c.rule.Steady (varsOf config key.period plan worker salary t)

instance (config : EngineConfig) (key : RunKey) (plan : ConceptPlan) (worker : Worker) :
    Decidable (Steady config key plan worker) :=
  inferInstanceAs (Decidable (∀ salary, config.scaledSalary worker key.payrollType = .ok salary →
    ∀ t ∈ ConceptType.all, ∀ c ∈ plan.ofType t,
      c.rule.Steady (varsOf config key.period plan worker salary t)))

/-- The line of a restated salary is the same but for this salary. -/
theorem settle_restate (hconfig : config.Restates config') (hplan : plan.Restates plan')
    (hworker : worker.Restates worker') (hsalary : salary.value = salary'.value)
    (hsteady : ∀ t, ∀ c ∈ plan.ofType t, c.rule.Steady (varsOf config period plan worker salary t))
    (hsteady' : ∀ t, ∀ c ∈ plan'.ofType t,
      c.rule.Steady (varsOf config' period plan' worker' salary' t)) :
    (settle config period plan worker salary).Restates
      (settle config' period plan' worker' salary') := by
  have hvars := Variables.forWorker_restate period hconfig hworker hsalary
  have hearnings := Phase.ofConcepts_restate (hplan .earning) hvars (hsteady .earning)
    (hsteady' .earning)
  -- As the total of earnings is the same, so is what the later phases read.
  have hsettled : ∀ t, (varsOf config period plan worker salary t).Restates
      (varsOf config' period plan' worker' salary' t) := by
    intro t
    cases t with
    | earning => exact hvars
    | deduction | employerContribution =>
      exact hvars.set _ (congrArg (fun p => p.total.value) hearnings)
  have hphase : ∀ t, Phase.ofConcepts (varsOf config period plan worker salary t) (plan.ofType t)
      = Phase.ofConcepts (varsOf config' period plan' worker' salary' t) (plan'.ofType t) :=
    fun t => Phase.ofConcepts_restate (hplan t) (hsettled t) (hsteady t) (hsteady' t)
  have hdeductions := hphase .deduction
  have hcontributions := hphase .employerContribution
  obtain ⟨written, _, rfl⟩ := hworker
  refine ⟨salary', hsalary, ?_⟩
  simp only [varsOf, ConceptPlan.ofType] at hearnings hdeductions hcontributions
  simp only [settle]
  rw [hdeductions, hcontributions, hearnings]
  rfl

/-- **Restated inputs give restated lines**: whatever numbers are written with more zeros at the end
    or fewer, either the salary is out of bounds for both, or both lines have the same applications,
    totals and net pay.  In neither input may a formula divide with a tie that goes up, or round to
    a number of places that is a zero with a sign. -/
theorem compute_restate (key : RunKey) (hconfig : config.Restates config')
    (hplan : plan.Restates plan') (hworker : worker.Restates worker')
    (hsteady : Steady config key plan worker) (hsteady' : Steady config' key plan' worker') :
    ((∃ amount, compute config key plan worker = .error (.amountOutOfRange amount)) ∧
      ∃ amount, compute config' key plan' worker' = .error (.amountOutOfRange amount)) ∨
    ∃ line line', compute config key plan worker = .ok line ∧
      compute config' key plan' worker' = .ok line' ∧ line.Restates line' := by
  have hall : ∀ t, t ∈ ConceptType.all := fun t => by cases t <;> decide
  rcases EngineConfig.scaledSalary_restate hconfig hworker key.payrollType with
    ⟨⟨amount, herror⟩, amount', herror'⟩ | ⟨salary, salary', hsalary, hsalary', hvalue⟩
  · refine .inl ⟨⟨amount, ?_⟩, amount', ?_⟩
    · rw [compute, herror]
      rfl
    · rw [compute, herror']
      rfl
  · refine .inr ⟨_, _, compute_eq_ok_iff.2 ⟨salary, hsalary, rfl⟩,
      compute_eq_ok_iff.2 ⟨salary', hsalary', rfl⟩, ?_⟩
    exact settle_restate hconfig hplan hworker hvalue (fun t => hsteady salary hsalary t (hall t))
      fun t => hsteady' salary' hsalary' t (hall t)

/-- The whole number `n`, written with `k` fractional digits. -/
def written (n k : Nat) : Decimal := (ofParts? false (n * pow10 k) k).getD .zero

/-- A policy with all of its numbers written with `k` fractional digits. -/
def policy (k : Nat) : EngineConfig where
  multipliers := .ofList [(.regular, written 1 k)]
  defaults :=
    { workedDays := written 30 k
      overtimeHours := written 5 k
      absenceDays := written 1 k
      extra := .ofList [("BONUS", written 7 k)] }

/-- Eight days of pay and a bonus, a share of that to be deducted, and a contribution, all of their
    numbers being written with `k` fractional digits. -/
def daily (k : Nat) : ConceptPlan where
  earnings := [⟨"c1", "DAY", "Days", .earning,
    .formula "ORIGINAL_BASIC_SALARY / WORKED_DAYS * 8 + BONUS", 1, .active⟩]
  deductions :=
    [⟨"c2", "AFP", "Pension", .deduction, .percentage (some (written 13 k)), 2, .active⟩]
  contributions :=
    [⟨"c3", "FEE", "Fee", .employerContribution, .fixed (some (written 9 k)), 3, .active⟩]

/-- A worker of the given salary. -/
def paid (salary : Decimal) : Worker := { clerk with basicSalary := salary }

theorem compute_restate_padded :
    ∃ line line',
      compute (policy 0) ⟨⟨2025, 3, by decide⟩, .regular⟩ (daily 0) (paid (written 2000 0))
        = .ok line ∧
      compute (policy 2) ⟨⟨2025, 3, by decide⟩, .regular⟩ (daily 2) (paid (written 2000 2))
        = .ok line' ∧
      line.Restates line' ∧
      line.applications.map Application.amount = [⟨false, 54033, 2, by decide, by decide⟩,
        ⟨false, 7024, 2, by decide, by decide⟩, ⟨false, 900, 2, by decide, by decide⟩] := by
  have hconfig : (policy 0).Restates (policy 2) :=
    ⟨(Table.Restates.refl .empty).foldl_set (.cons ⟨rfl, by decide +kernel⟩ .nil),
      by decide +kernel, by decide +kernel, by decide +kernel,
      (Table.Restates.refl .empty).foldl_set (.cons ⟨rfl, by decide +kernel⟩ .nil)⟩
  have hplan : (daily 0).Restates (daily 2) := by
    intro t
    cases t with
    | earning => exact .cons ⟨_, .formula, rfl⟩ .nil
    | deduction => exact .cons ⟨_, .percentage (by decide +kernel), rfl⟩ .nil
    | employerContribution => exact .cons ⟨_, .fixed (by decide +kernel), rfl⟩ .nil
  have hworker : (paid (written 2000 0)).Restates (paid (written 2000 2)) :=
    ⟨_, by decide +kernel, rfl⟩
  have hcomputed : (compute (policy 0) ⟨⟨2025, 3, by decide⟩, .regular⟩ (daily 0)
      (paid (written 2000 0))).toOption.any (fun line => line.applications.map Application.amount
        == [⟨false, 54033, 2, by decide, by decide⟩, ⟨false, 7024, 2, by decide, by decide⟩,
          ⟨false, 900, 2, by decide, by decide⟩]) = true := by decide +kernel
  obtain ⟨line₀, hline₀, hamounts⟩ := exists_ok_of_any hcomputed
  rcases compute_restate ⟨⟨2025, 3, by decide⟩, .regular⟩ hconfig hplan hworker
    (by decide +kernel) (by decide +kernel) with
    ⟨⟨amount, herror⟩, _⟩ | ⟨line, line', hline, hline', hsame⟩
  · rw [hline₀] at herror
    cases herror
  · obtain rfl := Except.ok.inj (hline₀.symm.trans hline)
    exact ⟨_, line', hline, hline', hsame, eq_of_beq hamounts⟩

/-- An earning that a formula gives. -/
def earningBy (text : String) : ConceptPlan where
  earnings := [⟨"c1", "F", "Formula", .earning, .formula text, 1, .active⟩]
  deductions := []
  contributions := []

/-- **Formulas that are not steady**: a quotient ties up or not, and a number of places is a zero
    with a sign or without one, as the salary is written. -/
theorem compute_depends_on_scale :
    let quotient := earningBy "15845632502852867518708790069 / ORIGINAL_BASIC_SALARY"
    let places := earningBy "ROUND(100, -ORIGINAL_BASIC_SALARY * 0.000000000000001)"
    let two := paid ⟨false, 2, 0, by decide, by decide⟩
    let two' := paid ⟨false, 20000000000000000000, 19, by decide, by decide⟩
    let tiny := paid ⟨false, 1, 15, by decide, by decide⟩
    let tiny' := paid ⟨false, 10000000000000, 28, by decide, by decide⟩
    two.Restates two' ∧ tiny.Restates tiny' ∧
      (∃ line line', compute {} ⟨⟨2025, 3, by decide⟩, .regular⟩ quotient two = .ok line ∧
        compute {} ⟨⟨2025, 3, by decide⟩, .regular⟩ quotient two' = .ok line' ∧
        line.netPay = .ofNat 7922816251426433759354395034 ∧
        line'.netPay = .ofNat 7922816251426433759354395035) ∧
      ∃ line line', compute {} ⟨⟨2025, 3, by decide⟩, .regular⟩ places tiny = .ok line ∧
        compute {} ⟨⟨2025, 3, by decide⟩, .regular⟩ places tiny' = .ok line' ∧
        line.netPay = ⟨false, 10000, 2, by decide, by decide⟩ ∧ line'.applications = [] := by
  intro quotient places two two' tiny tiny'
  have hexact : (compute {} ⟨⟨2025, 3, by decide⟩, .regular⟩ quotient two).toOption.any
      (fun line => line.netPay == .ofNat 7922816251426433759354395034) = true := by decide +kernel
  have hup : (compute {} ⟨⟨2025, 3, by decide⟩, .regular⟩ quotient two').toOption.any
      (fun line => line.netPay == .ofNat 7922816251426433759354395035) = true := by decide +kernel
  have hplain : (compute {} ⟨⟨2025, 3, by decide⟩, .regular⟩ places tiny).toOption.any
      (fun line => line.netPay == ⟨false, 10000, 2, by decide, by decide⟩) = true := by
    decide +kernel
  have hsigned : (compute {} ⟨⟨2025, 3, by decide⟩, .regular⟩ places tiny').toOption.any
      (fun line => line.applications == []) = true := by decide +kernel
  obtain ⟨line, hline, hnet⟩ := exists_ok_of_any hexact
  obtain ⟨line', hline', hnet'⟩ := exists_ok_of_any hup
  obtain ⟨rounded, hrounded, hpaid⟩ := exists_ok_of_any hplain
  obtain ⟨failed, hfailed, hnothing⟩ := exists_ok_of_any hsigned
  exact ⟨⟨_, by decide +kernel, rfl⟩, ⟨_, by decide +kernel, rfl⟩,
    ⟨line, line', hline, hline', eq_of_beq hnet, eq_of_beq hnet'⟩,
    rounded, failed, hrounded, hfailed, eq_of_beq hpaid, eq_of_beq hnothing⟩

end Line

end

end Payroll
