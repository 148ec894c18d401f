import Payroll.Proofs.Context
import Payroll.Proofs.Formula.Dependence
import Payroll.Proofs.Line.Restatement

namespace Payroll

/-!
# Reserved names

Constants can be configured under any name, also under one that a worker's own variable or the total
of earnings has.  Such a constant is never seen: a line looks its variables up by name, and by then
the name stands for something else.

* `EngineConfig.AgreesUnreserved` — policies that are the same but for constants of reserved names.
* `Rule.evaluate?_congr`, `Concept.pay_congr`, `Phase.ofConcepts_congr` — rules, concepts and phases
  depend on what each name stands for.
* `Line.settle_congr` — so does a line, and the total of earnings takes its place in both.
* `Line.compute_ignores_reserved` — **no line depends on constants of reserved names**.
-/

/-- Policies that are the same but for constants of reserved names.  When a roster counts as large
    has no part in a line. -/
structure EngineConfig.AgreesUnreserved (config config' : EngineConfig) : Prop where
  multipliers : ∀ t, config.multipliers.get? t = config'.multipliers.get? t
  workedDays : config.defaults.workedDays = config'.defaults.workedDays
  overtimeHours : config.defaults.overtimeHours = config'.defaults.overtimeHours
  absenceDays : config.defaults.absenceDays = config'.defaults.absenceDays
  extra : ∀ x ∉ Variables.reservedNames,
    config.defaults.extra.get? x = config'.defaults.extra.get? x

/-! ### What names stand for -/

section

variable {vars vars' : Variables}

theorem Variables.get?_withTotalEarnings_congr (h : ∀ x, vars.get? x = vars'.get? x)
    (total : Decimal) (x : String) :
    (vars.withTotalEarnings total).get? x = (vars'.withTotalEarnings total).get? x := by
  rw [withTotalEarnings, withTotalEarnings, Table.get?_set, Table.get?_set, h]

theorem Rule.evaluate?_congr (h : ∀ x, vars.get? x = vars'.get? x) (rule : Rule) :
    rule.evaluate? vars = rule.evaluate? vars' := by
  cases rule with
  | fixed value => rfl
  | percentage rate =>
    have hbase : percentageBase vars = percentageBase vars' := by
      rw [percentageBase, percentageBase, h, h]
    rw [evaluate?, evaluate?, hbase]
  | formula text => exact Formula.evaluate?_congr fun x _ => h x
  | manual => rfl

theorem Concept.pay_congr (h : ∀ x, vars.get? x = vars'.get? x) (c : Concept) :
    c.pay vars = c.pay vars' := by
  rw [pay, pay, amount, amount, evaluate?, evaluate?, c.rule.evaluate?_congr h]

theorem Phase.ofConcepts_congr (h : ∀ x, vars.get? x = vars'.get? x) (concepts : List Concept) :
    ofConcepts vars concepts = ofConcepts vars' concepts := by
  have hsame : record vars .zero concepts = record vars' .zero concepts :=
    record_congr (List.forall₂_same.2 fun c _ => ⟨c.pay_congr h, rfl⟩) .zero
  rw [ofConcepts, ofConcepts, hsame]

end

/-! ### Lines -/

variable {config config' : EngineConfig}

/-- The variables of a worker cannot be told apart by name. -/
theorem EngineConfig.AgreesUnreserved.get?_forWorker (h : config.AgreesUnreserved config')
    (worker : Worker) (salary : Decimal) (period : Period) (x : String) :
    (Variables.forWorker worker salary period config.defaults).get? x
      = (Variables.forWorker worker salary period config'.defaults).get? x := by
  refine Variables.get?_forWorker_congr ?_ h.extra x
  rw [Variables.builtins, Variables.builtins, h.workedDays, h.overtimeHours, h.absenceDays]

/-- Salaries are scaled in the same way. -/
theorem EngineConfig.AgreesUnreserved.scaledSalary (h : config.AgreesUnreserved config')
    (worker : Worker) (t : PayrollType) :
    config.scaledSalary worker t = config'.scaledSalary worker t := by
  rw [EngineConfig.scaledSalary, EngineConfig.scaledSalary, multiplier, multiplier, h.multipliers]

namespace Line

/-- **A line depends on what the names stand for** before the earnings are settled. -/
theorem settle_congr {worker : Worker} {salary : Decimal} {period : Period}
    (h : ∀ x, (Variables.forWorker worker salary period config.defaults).get? x
      = (Variables.forWorker worker salary period config'.defaults).get? x) (plan : ConceptPlan) :
    settle config period plan worker salary = settle config' period plan worker salary := by
  have hearnings := Phase.ofConcepts_congr h plan.earnings
  -- The two totals of earnings are then the same, and so is what the later phases read.
  have hsettled := fun total =>
    Phase.ofConcepts_congr (Variables.get?_withTotalEarnings_congr h total)
  simp only [settle, hearnings, hsettled]

/-- **Reserved names cannot be configured.**  Whatever constants a policy has:

    * a policy that is the same but for constants of reserved names gives the same line, or the same
      error, for every worker in every run, whatever the plan is;
    * when the earnings of a worker are settled, a name that is not reserved stands for the constant
      of that name, if there is one, and each of the built-in names for what the worker, the period
      and the default values give it.  The total of earnings has no value. -/
theorem compute_ignores_reserved (config : EngineConfig) :
    (∀ config' : EngineConfig, config.AgreesUnreserved config' → ∀ key plan worker,
      compute config key plan worker = compute config' key plan worker) ∧
    ∀ worker salary period, let vars := Variables.forWorker worker salary period config.defaults
      (∀ x ∉ Variables.reservedNames, vars.get? x = config.defaults.extra.get? x) ∧
        Variables.builtinNames.map vars.get?
          = (Variables.builtins worker salary period config.defaults).map (fun e => some e.2) ∧
        vars.get? Variables.totalEarnings = none := by
  constructor
  · intro config' h key plan worker
    rw [compute, compute, h.scaledSalary]
    refine bind_congr fun salary => ?_
    rw [settle_congr (h.get?_forWorker worker salary key.period)]
  · intro worker salary period vars
    exact ⟨fun x hx => Variables.get?_forWorker_of_notMem hx, Variables.map_get?_forWorker ..,
      Variables.get?_totalEarnings_forWorker ..⟩

/-- A policy with a constant of its own. -/
def wageOnly : EngineConfig where
  defaults := { extra := .ofList [("MINIMUM_WAGE", .ofNat 1130)] }

/-- The same policy with constants that would replace the salary, the months of service and the
    total of earnings. -/
def intrusive : EngineConfig where
  defaults := { extra := .ofList [(Variables.basicSalary, .one), ("MINIMUM_WAGE", .ofNat 1130),
    ("TENURE_MONTHS", .ofNat 480), (Variables.totalEarnings, .ofNat 9000)] }

theorem intrusive_agreesUnreserved : intrusive.AgreesUnreserved wageOnly where
  multipliers _ := rfl
  workedDays := rfl
  overtimeHours := rfl
  absenceDays := rfl
  extra x hx := by
    have hsalary : x ≠ Variables.basicSalary := fun h => hx (h ▸ by decide)
    have hmonths : x ≠ "TENURE_MONTHS" := fun h => hx (h ▸ by decide)
    have htotal : x ≠ Variables.totalEarnings := fun h => hx (h ▸ by decide)
    simp only [intrusive, wageOnly, Table.ofList, List.foldl_cons, List.foldl_nil, Table.get?_set,
      if_neg hsalary, if_neg hmonths, if_neg htotal]

/-- The names of all of them, in earnings and in a deduction. -/
def probing : ConceptPlan where
  earnings := [⟨"c1", "BASE", "Base", .earning, .formula "BASIC_SALARY + MINIMUM_WAGE", 1, .active⟩,
    ⟨"c2", "TOP", "On top", .earning, .formula "TOTAL_EARNINGS", 2, .active⟩]
  deductions :=
    [⟨"c3", "AFP", "Pension", .deduction, .formula "TOTAL_EARNINGS - TENURE_MONTHS", 3, .active⟩]
  contributions := []

/-- The salary and the wage are paid, and nothing on top.  What the deduction leaves of them is one
    for each month of service, of which there are sixty-eight. -/
theorem compute_ignores_reserved_intrusive :
    ∃ line, compute intrusive ⟨⟨2025, 3, by decide⟩, .regular⟩ probing clerk = .ok line ∧
      compute wageOnly ⟨⟨2025, 3, by decide⟩, .regular⟩ probing clerk = .ok line ∧
      line.totalEarnings = ⟨false, 123000, 2, by decide, by decide⟩ ∧
      line.netPay = ⟨false, 6800, 2, by decide, by decide⟩ ∧
      (Variables.forWorker clerk .hundred ⟨2025, 3, by decide⟩ intrusive.defaults).get?
        "MINIMUM_WAGE"
        = some (.ofNat 1130) ∧
      (Variables.forWorker clerk .hundred ⟨2025, 3, by decide⟩ intrusive.defaults).get?
        Variables.totalEarnings
        = none := by
  have hcomputed : (compute intrusive ⟨⟨2025, 3, by decide⟩, .regular⟩ probing clerk).toOption.any
      (fun line => line.totalEarnings == ⟨false, 123000, 2, by decide, by decide⟩
        && line.netPay == ⟨false, 6800, 2, by decide, by decide⟩) = true := by decide +kernel
  obtain ⟨line, hline, htest⟩ := exists_ok_of_any hcomputed
  obtain ⟨htotal, hnet⟩ := Bool.and_eq_true_iff.1 htest
  obtain ⟨hsame, hstand⟩ := compute_ignores_reserved intrusive
  obtain ⟨hconstants, -, hunsettled⟩ := hstand clerk .hundred ⟨2025, 3, by decide⟩
  have hwage := hconstants "MINIMUM_WAGE" (by decide)
  refine ⟨line, hline, ?_, eq_of_beq htotal, eq_of_beq hnet, hwage.trans (by decide), hunsettled⟩
  rw [← hsame wageOnly intrusive_agreesUnreserved, hline]

end Line

end Payroll
