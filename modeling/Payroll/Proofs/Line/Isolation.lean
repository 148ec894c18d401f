import Payroll.Proofs.Context
import Payroll.Proofs.Formula.Names
import Payroll.Proofs.Line.Recorded

namespace Payroll

/-!
# What a phase can see of another one

Earnings are settled under variables in which the total of earnings has no value, whatever
constants are configured, and in which the plan has no part.  All that the later phases can see of
them is their total.

* `Concept.get?_isSome_of_pay` — a formula that pays something reads only names that have a value.
* `Phase.total_ext` — totals of the same value are the same decimal, so that no later formula can
  tell them apart.
* `Line.compute_isolates_phases` — **earnings do not see one another, and they are seen only
  by their total**.
-/

/-- What has no value pays nothing. -/
theorem Concept.exists_value_of_pay {vars : Variables} {c : Concept}
    (h : (c.pay vars).isZero = false) : ∃ d, c.evaluate? vars = .ok d := by
  by_contra hnone
  have hzero : (c.pay vars).isZero = true := pay_isZero_iff.2 fun d hd => absurd ⟨d, hd⟩ hnone
  rw [hzero] at h
  cases h

/-- **A formula that pays something** reads only names that have a value. -/
theorem Concept.get?_isSome_of_pay {vars : Variables} {c : Concept} {text x : String}
    (h : (c.pay vars).isZero = false) (hrule : c.rule = .formula text) (hx : Formula.Reads text x) :
    (vars.get? x).isSome = true := by
  obtain ⟨d, hd⟩ := c.exists_value_of_pay h
  rw [evaluate?, hrule, Rule.evaluate?] at hd
  exact Formula.get?_isSome_of_evaluate? hd hx

/-- Totals of the same value are the same, for they are written in the same way. -/
theorem Phase.total_ext {vars vars' : Variables} {concepts concepts' : List Concept}
    (h : (ofConcepts vars concepts).total.value = (ofConcepts vars' concepts').total.value) :
    (ofConcepts vars concepts).total = (ofConcepts vars' concepts').total := by
  have hnegative : (ofConcepts vars concepts).total.negative
      = (ofConcepts vars' concepts').total.negative :=
    (total_isAmount vars concepts).nonneg.trans (total_isAmount vars' concepts').nonneg.symm
  exact (isPadded_roundMoney _).ext (isPadded_roundMoney _) hnegative h

namespace Line

variable {config : EngineConfig} {key : RunKey} {worker : Worker}

/-- The earnings of a line are what the recorded ones pay, and their formulas do not
    read the total. -/
theorem earnings_of_compute {catalog : List Concept} {line : Line} {salary : Decimal}
    (hsalary : config.scaledSalary worker key.payrollType = .ok salary)
    (h : compute config key (.ofConcepts catalog) worker = .ok line) :
    let vars := Variables.forWorker worker salary key.period config.defaults
    ∃ paid : List Concept, paid.Sublist (ConceptPlan.ofConcepts catalog).earnings ∧
      line.applicationsOf .earning
        = paid.map (fun c => c.application (roundMoney (c.amount vars))) ∧
      ∀ c ∈ paid, ∀ text, c.rule = .formula text →
        ¬ Formula.Reads text Variables.totalEarnings := by
  intro vars
  obtain ⟨salary', hsalary', hparts⟩ := parts_of_compute h
  obtain rfl := Except.ok.inj (hsalary.symm.trans hsalary')
  obtain ⟨hsublist, hpays⟩ :=
    Phase.paid_spec vars .zero (ConceptPlan.ofConcepts catalog).earnings
  refine ⟨_, hsublist, (hparts .earning).1, fun c hc text hrule hreads => ?_⟩
  have hsome := Concept.get?_isSome_of_pay (hpays c hc) hrule hreads
  rw [Variables.get?_totalEarnings_forWorker] at hsome
  cases hsome

/-- Deductions and contributions are the same for two plans that have the same ones and come to the
    same earnings. -/
theorem parts_eq_of_totalEarnings {catalog catalog' : List Concept} {line line' : Line}
    (h : compute config key (.ofConcepts catalog) worker = .ok line)
    (h' : compute config key (.ofConcepts catalog') worker = .ok line')
    (hdeductions : (ConceptPlan.ofConcepts catalog).deductions
      = (ConceptPlan.ofConcepts catalog').deductions)
    (hcontributions :
      (ConceptPlan.ofConcepts catalog).contributions
        = (ConceptPlan.ofConcepts catalog').contributions)
    (htotal : line.totalEarnings.value = line'.totalEarnings.value) {t : ConceptType}
    (ht : t ≠ .earning) :
    line.applicationsOf t = line'.applicationsOf t ∧ line.totalOf t = line'.totalOf t := by
  obtain ⟨salary, hsalary, rfl⟩ := compute_eq_ok_iff.1 h
  obtain ⟨salary', hsalary', rfl⟩ := compute_eq_ok_iff.1 h'
  obtain rfl := Except.ok.inj (hsalary.symm.trans hsalary')
  have hplans : (ConceptPlan.ofConcepts catalog).ofType t
      = (ConceptPlan.ofConcepts catalog').ofType t := by
    cases t with
    | earning => exact absurd rfl ht
    | deduction => exact hdeductions
    | employerContribution => exact hcontributions
  -- The two phases read the same variables, for the two totals are the same.
  have hvars : varsOf config key.period (.ofConcepts catalog) worker salary t
      = varsOf config key.period (.ofConcepts catalog') worker salary t := by
    have hsame := Phase.total_ext htotal
    cases t with
    | earning => exact absurd rfl ht
    | deduction | employerContribution => exact congrArg (Variables.withTotalEarnings _) hsame
  obtain ⟨happlications, hsum⟩ := parts_settle config key.period catalog worker salary t
  obtain ⟨happlications', hsum'⟩ := parts_settle config key.period catalog' worker salary t
  rw [happlications, happlications', hsum, hsum', hplans, hvars]
  exact ⟨rfl, rfl⟩

/-- **Phases are isolated.**  There are variables without a total of earnings under which all
    earnings of a worker are settled, whatever the plan is:

    * what a line records of the earnings is what some of the concepts pay under them, and none of
      these is a formula that reads the total of earnings, be it in a branch that is not taken;
    * two plans with the same deductions and contributions that come to the same earnings record the
      same deductions and contributions, and the same totals of them. -/
theorem compute_isolates_phases (config : EngineConfig) (key : RunKey) (worker : Worker) :
    ∃ vars : Variables, vars.get? Variables.totalEarnings = none ∧
      (∀ catalog line, compute config key (.ofConcepts catalog) worker = .ok line →
        ∃ paid : List Concept, paid.Sublist (ConceptPlan.ofConcepts catalog).earnings ∧
          line.applicationsOf .earning
            = paid.map (fun c => c.application (roundMoney (c.amount vars))) ∧
          ∀ c ∈ paid, ∀ text, c.rule = .formula text →
            ¬ Formula.Reads text Variables.totalEarnings) ∧
      ∀ catalog catalog' line line',
        compute config key (.ofConcepts catalog) worker = .ok line →
        compute config key (.ofConcepts catalog') worker = .ok line' →
        (ConceptPlan.ofConcepts catalog).deductions = (ConceptPlan.ofConcepts catalog').deductions →
        (ConceptPlan.ofConcepts catalog).contributions
          = (ConceptPlan.ofConcepts catalog').contributions →
        line.totalEarnings.value = line'.totalEarnings.value →
        ∀ t ≠ ConceptType.earning,
          line.applicationsOf t = line'.applicationsOf t ∧ line.totalOf t = line'.totalOf t := by
  -- If the scaled salary is out of bounds there is no line, and any salary will do.
  obtain ⟨salary, hsalary⟩ : ∃ salary, ∀ salary',
      config.scaledSalary worker key.payrollType = .ok salary' → salary' = salary := by
    cases config.scaledSalary worker key.payrollType with
    | ok salary => exact ⟨salary, fun _ h => (Except.ok.inj h).symm⟩
    | error e => exact ⟨.zero, fun _ h => by cases h⟩
  refine ⟨Variables.forWorker worker salary key.period config.defaults,
    Variables.get?_totalEarnings_forWorker .., fun catalog line h => ?_,
    fun catalog catalog' line line' h h' hdeductions hcontributions htotal t ht =>
      parts_eq_of_totalEarnings h h' hdeductions hcontributions htotal ht⟩
  obtain ⟨salary', hsalary', _⟩ := compute_eq_ok_iff.1 h
  obtain rfl := hsalary salary' hsalary'
  exact earnings_of_compute hsalary' h

/-- A policy that would give the total of earnings a value beforehand. -/
def forged : EngineConfig where
  defaults := { extra := .ofList [(Variables.totalEarnings, .ofNat 9000)] }

/-- A share of the earnings to be deducted. -/
def pension : Concept :=
  ⟨"c3", "AFP", "Pension", .deduction, .percentage (some (.ofNat 13)), 3, .active⟩

/-- The salary, and a formula that mentions the total of earnings in a branch that is not taken. -/
def eager : List Concept :=
  [⟨"c1", "BASE", "Base", .earning, .percentage (some .hundred), 1, .active⟩,
    ⟨"c2", "TOP", "On top", .earning, .formula "IF(1, 5, TOTAL_EARNINGS)", 2, .active⟩, pension]

/-- The same earnings in another way. -/
def modest : List Concept :=
  [⟨"c4", "FLAT", "Flat", .earning, .fixed (some .hundred), 1, .active⟩, pension]

theorem compute_isolates_phases_forged :
    ∃ line line', compute forged ⟨⟨2025, 3, by decide⟩, .regular⟩ (.ofConcepts eager) clerk
        = .ok line ∧
      compute forged ⟨⟨2025, 3, by decide⟩, .regular⟩ (.ofConcepts modest) clerk = .ok line' ∧
      Formula.Reads "IF(1, 5, TOTAL_EARNINGS)" Variables.totalEarnings ∧
      (line.applicationsOf .earning).map Application.code = ["BASE"] ∧
      line.applicationsOf .deduction = line'.applicationsOf .deduction ∧
      (line'.applicationsOf .deduction).map Application.amount
        = [⟨false, 1300, 2, by decide, by decide⟩] := by
  have hplan : ConceptPlan.ofConcepts eager = ⟨eager.take 2, [pension], []⟩ :=
    (ConceptPlan.ofConcepts_of_pairwise (by decide +kernel)).trans (by decide +kernel)
  have hplan' : ConceptPlan.ofConcepts modest = ⟨modest.take 1, [pension], []⟩ :=
    (ConceptPlan.ofConcepts_of_pairwise (by decide +kernel)).trans (by decide +kernel)
  have hcomputed : (compute forged ⟨⟨2025, 3, by decide⟩, .regular⟩ ⟨eager.take 2, [pension], []⟩
      clerk).toOption.any (fun line =>
        (line.applicationsOf .earning).map Application.code == ["BASE"]
          && line.totalEarnings == ⟨false, 10000, 2, by decide, by decide⟩) = true := by
    decide +kernel
  have hcomputed' : (compute forged ⟨⟨2025, 3, by decide⟩, .regular⟩ ⟨modest.take 1, [pension], []⟩
      clerk).toOption.any (fun line =>
        (line.applicationsOf .deduction).map Application.amount
            == [⟨false, 1300, 2, by decide, by decide⟩]
          && line.totalEarnings == ⟨false, 10000, 2, by decide, by decide⟩) = true := by
    decide +kernel
  rw [← hplan] at hcomputed
  rw [← hplan'] at hcomputed'
  have hreads : Formula.Reads "IF(1, 5, TOTAL_EARNINGS)" Variables.totalEarnings := by
    obtain ⟨ts, hts, htokens⟩ := exists_ok_of_any (x := Formula.tokens "IF(1, 5, TOTAL_EARNINGS)")
      (p := (· == [.name "IF", .leftParen, .number .one, .comma, .number (.ofNat 5), .comma,
        .name Variables.totalEarnings, .rightParen])) (by decide +kernel)
    rw [eq_of_beq htokens] at hts
    exact ⟨[.name "IF", .leftParen, .number .one, .comma, .number (.ofNat 5), .comma],
      [.rightParen], hts, by simp⟩
  obtain ⟨line, hline, htest⟩ := exists_ok_of_any hcomputed
  obtain ⟨line', hline', htest'⟩ := exists_ok_of_any hcomputed'
  obtain ⟨hcodes, htotal⟩ := Bool.and_eq_true_iff.1 htest
  obtain ⟨hamounts, htotal'⟩ := Bool.and_eq_true_iff.1 htest'
  obtain ⟨_, _, _, hlater⟩ :=
    compute_isolates_phases forged ⟨⟨2025, 3, by decide⟩, .regular⟩ clerk
  have hsame : line.totalEarnings.value = line'.totalEarnings.value := by
    rw [eq_of_beq htotal, eq_of_beq htotal']
  obtain ⟨hdeductions, _⟩ := hlater eager modest line line' hline hline' (by rw [hplan, hplan'])
    (by rw [hplan, hplan']) hsame .deduction (by decide)
  exact ⟨line, line', hline, hline', hreads, eq_of_beq hcodes, hdeductions, eq_of_beq hamounts⟩

end Line

end Payroll
