import Payroll.Line
import Payroll.Proofs.Decimal.Amount
import Payroll.Proofs.Except

namespace Payroll

/-!
# Computed lines balance

Whatever the policy, the plan and the worker are, the three totals of a computed line are amounts of
money, so that net pay exists, and rounding it changes nothing.

* `Phase.record_spec` — going through the concepts of a phase keeps the total free of a sign, and
  records no amount of zero.
* `Phase.total_isAmount` — hence the total of a phase is an amount.
* `Line.isBalanced_settle` — **net pay of a computed line is earnings less deductions**.
* `Line.compute_balances` — so every worker whose scaled salary is within bounds has a line that
  balances.
-/

/-! ### Phases -/

/-- What an item counts for has no sign. -/
theorem Concept.amount_nonneg (c : Concept) (vars : Variables) :
    (c.amount vars).negative = false := by
  unfold Concept.amount
  cases c.evaluate? vars with
  | error e => rfl
  | ok d =>
    cases h : d.negative with
    | true => simp [h, Decimal.zero]
    | false => simp [h]

namespace Phase

/-- One pass through concepts: the total stays free of a sign, and zeros are not recorded. -/
theorem record_spec (vars : Variables) {total : Decimal} (h : total.negative = false)
    (concepts : List Concept) :
    (record vars total concepts).total.negative = false ∧
      ∀ a ∈ (record vars total concepts).applications, a.amount.isZero = false := by
  induction concepts generalizing total with
  | nil => exact ⟨h, by simp [record]⟩
  | cons c cs ih =>
    have hamount : (roundMoney (c.amount vars)).negative = false :=
      (roundMoney_isAmount (c.amount_nonneg vars)).nonneg
    simp only [record]
    split
    · -- An amount of zero is left out.
      exact ih h
    · rename_i hzero
      split
      · -- And so is one that the total has no room for.
        exact ih h
      · rename_i sum hsum
        obtain ⟨htotal, hrest⟩ := ih (Decimal.add_nonneg h hamount hsum)
        refine ⟨htotal, fun a ha => ?_⟩
        rcases List.mem_cons.1 ha with rfl | htail
        · exact Bool.eq_false_iff.2 hzero
        · exact hrest a htail

/-- **The total of a phase** is an amount of money. -/
theorem total_isAmount (vars : Variables) (concepts : List Concept) :
    (ofConcepts vars concepts).total.IsAmount :=
  roundMoney_isAmount (record_spec vars rfl concepts).1

theorem isZero_of_mem_applications {vars : Variables} {concepts : List Concept} {a : Application}
    (h : a ∈ (ofConcepts vars concepts).applications) : a.amount.isZero = false :=
  (record_spec vars rfl concepts).2 a h

end Phase

/-! ### Lines -/

namespace Line

variable {config : EngineConfig} {plan : ConceptPlan} {worker : Worker}

/-- The totals of a settled line are amounts. -/
theorem totals_isAmount_settle (config : EngineConfig) (period : Period) (plan : ConceptPlan)
    (worker : Worker) (salary : Decimal) :
    let line := settle config period plan worker salary
    line.totalEarnings.IsAmount ∧ line.totalDeductions.IsAmount ∧
      line.totalContributions.IsAmount :=
  ⟨Phase.total_isAmount _ plan.earnings, Phase.total_isAmount _ plan.deductions,
    Phase.total_isAmount _ plan.contributions⟩

/-- The difference of the totals exists, and net pay is that difference, rounded, of the same
    value. -/
theorem netPay_settle (config : EngineConfig) (period : Period) (plan : ConceptPlan)
    (worker : Worker) (salary : Decimal) :
    let line := settle config period plan worker salary
    ∃ net, line.totalEarnings.sub line.totalDeductions = some net ∧
      line.netPay = roundMoney net ∧ net.SameValue line.netPay := by
  intro line
  obtain ⟨he, hd, _⟩ := totals_isAmount_settle config period plan worker salary
  -- As the difference has two fractional digits at most, rounding keeps its value.
  obtain ⟨net, hnet, hscale⟩ := Decimal.sub_exists he.nonneg hd.nonneg
  have htwo : net.scale ≤ 2 := Nat.le_trans hscale (Nat.max_le.2 ⟨he.scale_le, hd.scale_le⟩)
  have hdef :
      line.netPay = roundMoney ((line.totalEarnings.sub line.totalDeductions).getD .zero) := by
    simp only [line, settle]
  have hpay : line.netPay = roundMoney net := by rw [hdef, hnet, Option.getD_some]
  exact ⟨net, hnet, hpay, hpay ▸ roundMoney_sameValue htwo⟩

/-- **Net pay of a computed line** is earnings less deductions. -/
theorem isBalanced_settle (config : EngineConfig) (period : Period) (plan : ConceptPlan)
    (worker : Worker) (salary : Decimal) :
    (settle config period plan worker salary).isBalanced = true := by
  obtain ⟨net, hnet, _, hvalue⟩ := netPay_settle config period plan worker salary
  rw [isBalanced, hnet, Option.any_some, decide_eq_true_eq]
  exact hvalue

/-- A computed line records no amount of zero. -/
theorem isZero_of_mem_settle {period : Period} {salary : Decimal} {a : Application}
    (h : a ∈ (settle config period plan worker salary).applications) : a.amount.isZero = false := by
  rw [settle, List.mem_append, List.mem_append] at h
  rcases h with (hearnings | hdeductions) | hcontributions
  · exact Phase.isZero_of_mem_applications hearnings
  · exact Phase.isZero_of_mem_applications hdeductions
  · exact Phase.isZero_of_mem_applications hcontributions

/-- What is computed is settled for the scaled salary. -/
theorem compute_eq_ok_iff {key : RunKey} {line : Line} :
    compute config key plan worker = .ok line ↔
      ∃ salary, config.scaledSalary worker key.payrollType = .ok salary ∧
        line = settle config key.period plan worker salary := by
  unfold compute
  rw [bind_eq_ok_iff]
  simp only [pure, Except.pure, Except.ok.injEq, eq_comm]

/-- There is a line unless the scaled salary is out of bounds. -/
theorem compute_cases (config : EngineConfig) (key : RunKey) (plan : ConceptPlan)
    (worker : Worker) :
    (∃ salary, compute config key plan worker = .ok (settle config key.period plan worker salary)) ∨
      ∃ amount, compute config key plan worker = .error (.amountOutOfRange amount) := by
  unfold compute EngineConfig.scaledSalary
  cases worker.basicSalary.mul (config.multiplier key.payrollType) with
  | some salary => exact .inl ⟨roundMoney salary, rfl⟩
  | none => exact .inr ⟨_, rfl⟩

/-- **Every line that is computed** balances.  Unless the scaled salary is out of bounds, there is a
    line; its totals are not negative, their difference is within bounds, and net pay is that
    difference, rounded, of the same value. -/
theorem compute_balances {key : RunKey}
    (h : ∀ amount, compute config key plan worker ≠ .error (.amountOutOfRange amount)) :
    ∃ line net, compute config key plan worker = .ok line ∧ 0 ≤ line.totalEarnings.value ∧
      0 ≤ line.totalDeductions.value ∧ 0 ≤ line.totalContributions.value ∧
      line.totalEarnings.sub line.totalDeductions = some net ∧ line.netPay = roundMoney net ∧
      net.value = line.netPay.value ∧ line.isBalanced = true := by
  rcases compute_cases config key plan worker with ⟨salary, hok⟩ | ⟨amount, herror⟩
  · obtain ⟨he, hd, hc⟩ := totals_isAmount_settle config key.period plan worker salary
    obtain ⟨net, hnet, hpay, hvalue⟩ := netPay_settle config key.period plan worker salary
    exact ⟨_, net, hok, Decimal.value_nonneg he.nonneg, Decimal.value_nonneg hd.nonneg,
      Decimal.value_nonneg hc.nonneg, hnet, hpay, Decimal.sameValue_iff_value_eq.1 hvalue,
      isBalanced_settle config key.period plan worker salary⟩
  · exact absurd herror (h amount)

/-- The greatest amount to earn, which leaves no room for fractional digits, and one to deduct that
    has some. -/
def ceiling : ConceptPlan where
  earnings := [⟨"c1", "MAX", "Ceiling", .earning, .fixed (some (.ofNat Decimal.maxCoefficient)), 1,
    .active⟩]
  deductions := [⟨"c2", "FEE", "Fee", .deduction,
    .fixed (some ⟨false, 5, 1, by decide, by decide⟩), 2, .active⟩]
  contributions := []

/-- A worker who is paid by the hundred. -/
def clerk : Worker :=
  ⟨"w1", "40112233", "Ana", "Quispe", .hundred, ⟨2019, 7, 1, by decide, by decide, by decide⟩,
    .indefinite, "office", 2, .active⟩

theorem compute_balances_ceiling :
    ∃ line net, compute {} ⟨⟨2025, 3, by decide⟩, .regular⟩ ceiling clerk = .ok line ∧
      line.totalEarnings = .ofNat Decimal.maxCoefficient ∧ line.totalDeductions.scale = 2 ∧
      line.totalEarnings.sub line.totalDeductions = some net ∧ net.value = line.netPay.value ∧
      line.isBalanced = true := by
  have hcomputed : (compute {} ⟨⟨2025, 3, by decide⟩, .regular⟩ ceiling clerk).toOption.any
      (fun line => line.totalEarnings == .ofNat Decimal.maxCoefficient
        && line.totalDeductions.scale == 2) = true := by decide +kernel
  have hok : ∀ amount, compute {} ⟨⟨2025, 3, by decide⟩, .regular⟩ ceiling clerk
      ≠ .error (.amountOutOfRange amount) := by
    intro amount herror
    rw [herror] at hcomputed
    cases hcomputed
  obtain ⟨line, net, hline, _, _, _, hnet, _, hvalue, hbalanced⟩ := compute_balances hok
  rw [hline] at hcomputed
  obtain ⟨hearnings, hscale⟩ := Bool.and_eq_true_iff.1 hcomputed
  exact ⟨line, net, hline, eq_of_beq hearnings, eq_of_beq hscale, hnet, hvalue, hbalanced⟩

end Line

end Payroll
