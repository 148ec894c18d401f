import Payroll.Proofs.Decimal.Cents
import Payroll.Proofs.Line.Balance

namespace Payroll

/-!
# What a line records

A phase goes through its concepts with a running total.  Here the concepts that it records are told
apart from their amounts: what is recorded of each of them is what it pays, and the running total is
the sum of that, added from left to right.

* `Concept.pay` — what a concept counts for, rounded; `Concept.pay_isZero_iff`, it is nothing
  exactly if the concept has no value or one of less than half a cent.
* `Phase.Skips`, `Phase.Takes` — what becomes of one concept: it leaves the phase as it was, or it
  is recorded and brings the total to a sum.
* `Phase.paid`, `Phase.record_eq` — the concepts that are recorded, and what going through a phase
  comes to in terms of them.
* `Line.applicationsOf`, `Line.totalOf`, `Line.varsOf` — the part of a line that belongs to one type
  of concept, and what the concepts of that type read.
* `Line.parts_of_compute` — each part of a computed line is the phase of its type.
* `Line.compute_adds_up` — **each total is the sum of what is recorded**: added up as decimals it
  always is, and exactly whenever every sum on the way fits.
* `Line.compute_drops_cent` — a total that is too large for cents falls short of what is recorded.
-/

/-- What a concept pays: what it counts for, rounded. -/
def Concept.pay (vars : Variables) (c : Concept) : Decimal := roundMoney (c.amount vars)

/-- What an item counts for: its value, if it has one and this is not negative. -/
theorem Concept.value_amount (c : Concept) (vars : Variables) :
    (c.amount vars).value = max 0 (((c.evaluate? vars).toOption.map Decimal.value).getD 0) := by
  unfold Concept.amount
  cases c.evaluate? vars with
  | error e => exact Decimal.value_zero
  | ok d =>
    have htest : (if d.negative then Decimal.zero else d).value = max 0 d.value := by
      split
      · rename_i hneg
        rw [Decimal.value_zero, max_eq_left (Decimal.value_nonpos hneg)]
      · rename_i hneg
        rw [max_eq_right (Decimal.value_nonneg (Bool.eq_false_iff.2 hneg))]
    exact htest

/-- A concept pays nothing if it has no value, or one of less than half a cent. -/
theorem Concept.pay_isZero_iff {vars : Variables} {c : Concept} :
    (c.pay vars).isZero = true ↔ ∀ d, c.evaluate? vars = .ok d → d.value < 1 / 200 := by
  have hcents : (c.pay vars).isZero = true ↔ (c.amount vars).value < 1 / 200 := by
    have hnonneg := Decimal.value_nonneg (c.amount_nonneg vars)
    rw [Decimal.isZero_iff_value_eq, pay, value_roundMoney, div_eq_zero_iff, Int.cast_eq_zero,
      or_iff_left (by norm_num), nearestCents, if_neg (not_lt.2 hnonneg), round_eq,
      Int.floor_eq_iff, Int.cast_zero]
    constructor
    · rintro ⟨_, hlt⟩
      linarith
    · intro hlt
      exact ⟨by linarith, by linarith⟩
  rw [hcents, value_amount]
  cases c.evaluate? vars with
  | error e => simp [Except.toOption]
  | ok d => simp [Except.toOption]

theorem Concept.pay_isAmount (vars : Variables) (c : Concept) : (c.pay vars).IsAmount :=
  roundMoney_isAmount (c.amount_nonneg vars)

namespace Phase

/-! ### One concept -/

/-- The concept leaves the phase as it was: it pays nothing, or the total has no room for it. -/
def Skips (vars : Variables) (total : Decimal) (c : Concept) : Prop :=
  (c.pay vars).isZero = true ∨ total.add (c.pay vars) = none

/-- The concept pays something that brings the total to `sum`. -/
def Takes (vars : Variables) (total : Decimal) (c : Concept) (sum : Decimal) : Prop :=
  (c.pay vars).isZero = false ∧ total.add (c.pay vars) = some sum

/-- Every concept does one or the other. -/
theorem skips_or_takes (vars : Variables) (total : Decimal) (c : Concept) :
    Skips vars total c ∨ ∃ sum, Takes vars total c sum := by
  cases hzero : (c.pay vars).isZero with
  | true => exact .inl (.inl hzero)
  | false =>
    cases hadd : total.add (c.pay vars) with
    | none => exact .inl (.inr hadd)
    | some sum => exact .inr ⟨sum, hzero, hadd⟩

variable {vars : Variables} {total sum : Decimal} {c : Concept}

/-- It does not do both. -/
theorem Takes.not_skips (h : Takes vars total c sum) : ¬ Skips vars total c := by
  obtain ⟨hpays, hsum⟩ := h
  rintro (hzero | hnone)
  · exact absurd hzero (Bool.eq_false_iff.1 hpays)
  · rw [hnone] at hsum
    cases hsum

theorem record_of_skips (h : Skips vars total c) (cs : List Concept) :
    record vars total (c :: cs) = record vars total cs := by
  rw [record]
  rcases h with hzero | hnone
  · rw [if_pos (show (roundMoney (c.amount vars)).isZero = true from hzero)]
  · rw [show total.add (roundMoney (c.amount vars)) = none from hnone]
    exact ite_self _

theorem record_of_takes (h : Takes vars total c sum) (cs : List Concept) :
    record vars total (c :: cs) = ⟨c.application (c.pay vars) :: (record vars sum cs).applications,
      (record vars sum cs).total⟩ := by
  obtain ⟨hzero, hsum⟩ := h
  rw [record,
    if_neg (show ¬ (roundMoney (c.amount vars)).isZero = true from Bool.eq_false_iff.1 hzero),
    show total.add (roundMoney (c.amount vars)) = some sum from hsum]
  rfl

/-! ### Recorded concepts -/

/-- The concepts that are recorded behind a total. -/
def paid (vars : Variables) (total : Decimal) : List Concept → List Concept
  | [] => []
  | c :: cs =>
    if (c.pay vars).isZero then paid vars total cs
    else
      match total.add (c.pay vars) with
      | none => paid vars total cs
      | some sum => c :: paid vars sum cs

theorem paid_of_skips (h : Skips vars total c) (cs : List Concept) :
    paid vars total (c :: cs) = paid vars total cs := by
  rw [paid]
  rcases h with hzero | hnone
  · rw [if_pos hzero]
  · rw [hnone]
    exact ite_self _

theorem paid_of_takes (h : Takes vars total c sum) (cs : List Concept) :
    paid vars total (c :: cs) = c :: paid vars sum cs := by
  rw [paid, if_neg (Bool.eq_false_iff.1 h.1), h.2]

/-- **A phase** records what the recorded concepts pay, in their order, and adds just that to its
    total. -/
theorem record_eq (vars : Variables) (total : Decimal) (concepts : List Concept) :
    (record vars total concepts).applications
        = (paid vars total concepts).map (fun c => c.application (c.pay vars)) ∧
      ((paid vars total concepts).map (Concept.pay vars)).foldlM Decimal.add total
        = some (record vars total concepts).total := by
  induction concepts generalizing total with
  | nil => exact ⟨rfl, rfl⟩
  | cons c cs ih =>
    rcases skips_or_takes vars total c with hskips | ⟨sum, htakes⟩
    · rw [record_of_skips hskips, paid_of_skips hskips]
      exact ih total
    · obtain ⟨happlications, htotal⟩ := ih sum
      rw [record_of_takes htakes, paid_of_takes htakes, List.map_cons, List.map_cons,
        List.foldlM_cons, htakes.2, happlications]
      exact ⟨rfl, htotal⟩

/-- The recorded concepts are some of all, and each of them pays something. -/
theorem paid_spec (vars : Variables) (total : Decimal) (concepts : List Concept) :
    (paid vars total concepts).Sublist concepts ∧
      ∀ c ∈ paid vars total concepts, (c.pay vars).isZero = false := by
  induction concepts generalizing total with
  | nil => exact ⟨List.Sublist.slnil, by simp [paid]⟩
  | cons c cs ih =>
    rcases skips_or_takes vars total c with hskips | ⟨sum, htakes⟩
    · rw [paid_of_skips hskips]
      exact ⟨(ih total).1.cons c, (ih total).2⟩
    · rw [paid_of_takes htakes, List.forall_mem_cons]
      exact ⟨(ih sum).1.cons_cons c, htakes.1, (ih sum).2⟩

end Phase

/-! ### Parts of a line -/

/-- The concepts of one type. -/
def ConceptPlan.ofType (plan : ConceptPlan) : ConceptType → List Concept
  | .earning => plan.earnings
  | .deduction => plan.deductions
  | .employerContribution => plan.contributions

/-- The concepts of a type in the plan of a catalog are of that type. -/
theorem ConceptPlan.conceptType_of_mem {catalog : List Concept} {t : ConceptType} {c : Concept}
    (h : c ∈ (ofConcepts catalog).ofType t) : c.conceptType = t := by
  have hgroup : c ∈ group catalog t := by
    cases t <;> exact h
  rw [group, List.mem_mergeSort, List.mem_filter, Bool.and_eq_true, beq_iff_eq] at hgroup
  exact hgroup.2.2

/-- A catalog in the sequence of evaluation is not brought into another one. -/
theorem ConceptPlan.ofConcepts_of_pairwise {catalog : List Concept}
    (h : catalog.Pairwise fun a b => a.precedes b = true) :
    let inUse := fun t => catalog.filter fun c => c.isActive && c.conceptType == t
    ofConcepts catalog = ⟨inUse .earning, inUse .deduction, inUse .employerContribution⟩ := by
  have hgroup : ∀ t, group catalog t = catalog.filter fun c => c.isActive && c.conceptType == t :=
    fun t => List.mergeSort_of_pairwise (h.filter _)
  rw [ofConcepts, hgroup, hgroup, hgroup]

namespace Line

/-- The total for one type of concept. -/
def totalOf (line : Line) : ConceptType → Decimal
  | .earning => line.totalEarnings
  | .deduction => line.totalDeductions
  | .employerContribution => line.totalContributions

/-- The applications of one type. -/
def applicationsOf (line : Line) (t : ConceptType) : List Application :=
  line.applications.filter fun a => a.conceptType == t

/-- What the concepts of one type read: earnings do not see their own total. -/
def varsOf (config : EngineConfig) (period : Period) (plan : ConceptPlan) (worker : Worker)
    (salary : Decimal) : ConceptType → Variables
  | .earning => Variables.forWorker worker salary period config.defaults
  | _ =>
    let vars := Variables.forWorker worker salary period config.defaults
    vars.withTotalEarnings (Phase.ofConcepts vars plan.earnings).total

variable {config : EngineConfig} {key : RunKey} {catalog : List Concept} {worker : Worker}
  {line : Line}

/-- What a phase records is of the type of its concepts. -/
theorem conceptType_of_mem_phase {vars : Variables} {t : ConceptType} {a : Application}
    (h : a ∈ (Phase.ofConcepts vars ((ConceptPlan.ofConcepts catalog).ofType t)).applications) :
    a.conceptType = t := by
  rw [Phase.ofConcepts, (Phase.record_eq _ _ _).1, List.mem_map] at h
  obtain ⟨c, hc, rfl⟩ := h
  exact ConceptPlan.conceptType_of_mem ((Phase.paid_spec _ _ _).1.subset hc)

/-- Only one phase records applications of a type. -/
theorem filter_phase {vars : Variables} {t t' : ConceptType} :
    (Phase.ofConcepts vars ((ConceptPlan.ofConcepts catalog).ofType t)).applications.filter
        (fun a => a.conceptType == t')
      = if t = t' then
          (Phase.ofConcepts vars ((ConceptPlan.ofConcepts catalog).ofType t)).applications
        else [] := by
  split
  · rename_i heq
    rw [List.filter_eq_self]
    intro a ha
    rw [conceptType_of_mem_phase ha, heq, beq_self_eq_true]
  · rename_i hne
    rw [List.filter_eq_nil_iff]
    intro a ha
    rw [conceptType_of_mem_phase ha, beq_iff_eq]
    exact hne

/-- **Each part of a settled line** is the phase of its type. -/
theorem parts_settle (config : EngineConfig) (period : Period) (catalog : List Concept)
    (worker : Worker) (salary : Decimal) (t : ConceptType) :
    let plan := ConceptPlan.ofConcepts catalog
    let line := settle config period plan worker salary
    let phase := Phase.ofConcepts (varsOf config period plan worker salary t) (plan.ofType t)
    line.applicationsOf t = phase.applications ∧ line.totalOf t = phase.total := by
  intro plan line phase
  refine ⟨?_, by cases t <;> rfl⟩
  have hparts : line.applications
      = (Phase.ofConcepts (varsOf config period plan worker salary .earning)
          (plan.ofType .earning)).applications
        ++ (Phase.ofConcepts (varsOf config period plan worker salary .deduction)
          (plan.ofType .deduction)).applications
        ++ (Phase.ofConcepts (varsOf config period plan worker salary .employerContribution)
          (plan.ofType .employerContribution)).applications := rfl
  rw [applicationsOf, hparts, List.filter_append, List.filter_append, filter_phase, filter_phase,
    filter_phase]
  cases t <;> simp [phase, plan]

/-- **Each part of a computed line**: the applications are what the recorded concepts of the type
    pay, and the total is the sum of that, rounded. -/
theorem parts_of_compute (h : compute config key (.ofConcepts catalog) worker = .ok line) :
    ∃ salary, config.scaledSalary worker key.payrollType = .ok salary ∧ ∀ t,
      let plan := ConceptPlan.ofConcepts catalog
      let vars := varsOf config key.period plan worker salary t
      let paid := Phase.paid vars .zero (plan.ofType t)
      line.applicationsOf t = paid.map (fun c => c.application (c.pay vars)) ∧
        ∃ sum, Decimal.sum? (paid.map (Concept.pay vars)) = some sum ∧
          line.totalOf t = roundMoney sum := by
  obtain ⟨salary, hsalary, rfl⟩ := compute_eq_ok_iff.1 h
  refine ⟨salary, hsalary, fun t => ?_⟩
  intro plan vars paid
  obtain ⟨happlications, htotal⟩ := parts_settle config key.period catalog worker salary t
  obtain ⟨hrecorded, hsum⟩ := Phase.record_eq vars .zero (plan.ofType t)
  exact ⟨happlications.trans hrecorded, _, hsum, htotal⟩

/-- **Each total is the sum of what is recorded.**  No amount of zero is recorded.  Added from left
    to right as decimals, the recorded amounts of a type give its total, rounded.  As numbers they
    add up to it exactly whenever every sum on the way fits, as it does if there is room for the
    cents of the sum. -/
theorem compute_adds_up (h : compute config key (.ofConcepts catalog) worker = .ok line)
    (t : ConceptType) :
    let amounts := (line.applicationsOf t).map Application.amount
    (∀ amount ∈ amounts, amount.isZero = false) ∧
      (∃ sum, Decimal.sum? amounts = some sum ∧ line.totalOf t = roundMoney sum) ∧
      ((amounts.map Decimal.value).sum ≤ Decimal.maxCoefficient / 100 → Decimal.SumsFit amounts) ∧
      (Decimal.SumsFit amounts → (line.totalOf t).value = (amounts.map Decimal.value).sum) := by
  intro amounts
  obtain ⟨salary, _, hparts⟩ := parts_of_compute h
  obtain ⟨happlications, sum, hsum, htotal⟩ := hparts t
  -- From here on it does not matter where the variables and the concepts come from.
  generalize hvars : varsOf config key.period (.ofConcepts catalog) worker salary t = vars at *
  generalize hpaid : Phase.paid vars .zero ((ConceptPlan.ofConcepts catalog).ofType t) = paid at *
  have hamounts : amounts = paid.map (Concept.pay vars) := by
    rw [show amounts = (line.applicationsOf t).map Application.amount from rfl, happlications,
      List.map_map]
    rfl
  have hmoney : ∀ amount ∈ amounts, amount.IsAmount := by
    rw [hamounts, List.forall_mem_map]
    exact fun c _ => c.pay_isAmount vars
  rw [← hamounts] at hsum
  refine ⟨?_, ⟨sum, hsum, htotal⟩, Decimal.sumsFit_of_amounts hmoney, fun hfits => ?_⟩
  · rw [hamounts, List.forall_mem_map, ← hpaid]
    exact (Phase.paid_spec vars .zero _).2
  · -- The exact sum is a number of cents, so that rounding leaves it as it is.
    obtain ⟨sum', hsum', hvalue, _⟩ := Decimal.sum?_of_sumsFit hfits
    obtain rfl := Option.some.inj (hsum.symm.trans hsum')
    have hcents : sum.WholeCents := by
      obtain ⟨n, hn⟩ := Decimal.exists_cents_of_sum fun a ha => (hmoney a ha).wholeCents
      exact ⟨n, hvalue.trans hn⟩
    rw [htotal, hcents.value_roundMoney_eq, hvalue]

/-- Two amounts to earn, one that is entered by hand, and a percentage to be deducted. -/
def office : List Concept :=
  [⟨"c1", "BASE", "Base", .earning, .fixed (some .hundred), 1, .active⟩,
    ⟨"c2", "HAND", "By hand", .earning, .manual, 2, .active⟩,
    ⟨"c3", "MEAL", "Meals", .earning, .fixed (Decimal.ofParts? false 5 1), 3, .active⟩,
    ⟨"c4", "AFP", "Pension", .deduction, .percentage (some (.ofNat 13)), 4, .active⟩]

theorem compute_adds_up_office :
    ∃ line, compute {} ⟨⟨2025, 3, by decide⟩, .regular⟩ (.ofConcepts office) clerk = .ok line ∧
      (line.applicationsOf .earning).map Application.amount
        = [⟨false, 10000, 2, by decide, by decide⟩, ⟨false, 50, 2, by decide, by decide⟩] ∧
      line.totalEarnings.value = 10050 / 100 := by
  have hplan : ConceptPlan.ofConcepts office = ⟨office.take 3, office.drop 3, []⟩ :=
    (ConceptPlan.ofConcepts_of_pairwise (by decide +kernel)).trans (by decide +kernel)
  have hcomputed : (compute {} ⟨⟨2025, 3, by decide⟩, .regular⟩ ⟨office.take 3, office.drop 3, []⟩
      clerk).toOption.any (fun line => (line.applicationsOf .earning).map Application.amount
        == [⟨false, 10000, 2, by decide, by decide⟩,
          ⟨false, 50, 2, by decide, by decide⟩]) = true := by
    decide +kernel
  rw [← hplan] at hcomputed
  obtain ⟨line, hline, htest⟩ := exists_ok_of_any hcomputed
  have hamounts := eq_of_beq htest
  obtain ⟨_, _, hsmall, hexact⟩ := compute_adds_up hline .earning
  rw [hamounts] at hsmall hexact
  exact ⟨line, hline, hamounts, (hexact (hsmall (by decide +kernel))).trans (by decide +kernel)⟩

/-- An amount that leaves room for one fractional digit less than cents have, and a cent. -/
def fortune : List Concept :=
  [⟨"c1", "A", "Fortune", .earning, .fixed (some (.ofNat 50000000000000000000000000000)), 1,
      .active⟩,
    ⟨"c2", "B", "Cent", .earning, .fixed (Decimal.ofParts? false 1 2), 2, .active⟩]

/-- **The cent is recorded, but it does not count**: the total has no room for it. -/
theorem compute_drops_cent :
    ∃ line, compute {} ⟨⟨2025, 3, by decide⟩, .regular⟩ (.ofConcepts fortune) clerk = .ok line ∧
      (line.applicationsOf .earning).map Application.code = ["A", "B"] ∧
      line.totalEarnings.value
        ≠ ((line.applicationsOf .earning).map fun a => a.amount.value).sum := by
  have hplan : ConceptPlan.ofConcepts fortune = ⟨fortune, [], []⟩ :=
    (ConceptPlan.ofConcepts_of_pairwise (by decide +kernel)).trans (by decide +kernel)
  have hcomputed : (compute {} ⟨⟨2025, 3, by decide⟩, .regular⟩ ⟨fortune, [], []⟩
      clerk).toOption.any (fun line =>
        (line.applicationsOf .earning).map (fun a => (a.code, a.amount))
            == [("A", .ofNat 50000000000000000000000000000),
              ("B", ⟨false, 1, 2, by decide, by decide⟩)]
          && line.totalEarnings == .ofNat 50000000000000000000000000000) = true := by decide +kernel
  obtain ⟨line, hline, htest⟩ := exists_ok_of_any hcomputed
  obtain ⟨hrecorded, htotal⟩ := Bool.and_eq_true_iff.1 htest
  have hcodes := congrArg (List.map Prod.fst) (eq_of_beq hrecorded)
  have hvalues := congrArg (List.map fun p => p.2.value) (eq_of_beq hrecorded)
  rw [List.map_map] at hcodes hvalues
  refine ⟨line, hplan ▸ hline, hcodes, fun heq => ?_⟩
  -- The cent alone would have to be zero.
  rw [show (line.applicationsOf .earning).map (fun a => a.amount.value) = _ from hvalues,
    eq_of_beq htotal] at heq
  have hcent : (⟨false, 1, 2, by decide, by decide⟩ : Decimal).value = 0 := by
    simpa using heq
  exact absurd (Decimal.isZero_iff_value_eq.2 hcent) (by decide)

end Line

end Payroll
