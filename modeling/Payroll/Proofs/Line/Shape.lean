import Payroll.Proofs.Line.Deletion

namespace Payroll

/-!
# The shape of a line

The applications of a computed line are laid out like its plan: type by type, and within a type
in the order of the concepts.  Which concepts are there is decided at each place by what is
recorded before it.

* `Phase.SkipsPlaces` — the places that a phase skips: nothing is paid there, or there is no room
  for it behind what has been recorded before.
* `Phase.paid_spec_places` — a phase records exactly what is not skipped.
* `Line.compute_shape` — **the shape of a computed line**: its parts, what is recorded in them, and
  which of its numbers are whole cents.
-/

/-- An amount that is not zero is positive. -/
theorem Decimal.IsAmount.value_pos {d : Decimal} (h : d.IsAmount) (hd : d.isZero = false) :
    0 < d.value :=
  lt_of_le_of_ne (value_nonneg h.nonneg) fun hzero =>
    Bool.eq_false_iff.1 hd (isZero_iff_value_eq.2 hzero.symm)

namespace Phase

variable {vars : Variables} {concepts : List Concept}

/-- These are the places that are skipped: a place is not if something is paid there, and adding it
    to the total of what is not skipped before it, which exists, does not overflow. -/
def SkipsPlaces (vars : Variables) (concepts : List Concept) (skipped : Nat → Bool) : Prop :=
  ∀ i c, concepts[i]? = some c → ∃ total,
    Decimal.sum? ((keptOf skipped (concepts.take i)).map (Concept.pay vars)) = some total ∧
      (skipped i = false ↔ (c.pay vars).isZero = false ∧ ∃ sum, total.add (c.pay vars) = some sum)

/-- **A phase records what it does not skip.** -/
theorem paid_spec_places (vars : Variables) (concepts : List Concept) :
    ∃ skipped, SkipsPlaces vars concepts skipped ∧
      paid vars .zero concepts = keptOf skipped concepts := by
  let skipped : Nat → Bool := fun i => !decide (RecordsAt vars concepts i)
  -- Whether a concept is recorded does not depend on those behind it.
  have hkept : ∀ i ≤ concepts.length,
      paid vars .zero (concepts.take i) = keptOf skipped (concepts.take i) := by
    intro i hi
    rw [paid_eq_filter, keptOf]
    refine congrArg (List.map Prod.fst) (List.filter_congr fun x hx => ?_)
    have hlt : x.2 < (concepts.take i).length := by simpa using (List.mem_zipIdx hx).2.1
    have hsame : RecordsAt vars (concepts.take i ++ concepts.drop i) x.2
        ↔ RecordsAt vars (concepts.take i) x.2 := recordsAt_append hlt (concepts.drop i)
    rw [List.take_append_drop] at hsame
    simp only [skipped, Bool.not_not, hsame]
  refine ⟨skipped, fun i c hc => ⟨totalBefore vars concepts i, ?_, ?_⟩, ?_⟩
  · obtain ⟨hi, _⟩ := List.getElem?_eq_some_iff.1 hc
    rw [← hkept i hi.le]
    exact (record_eq vars .zero (concepts.take i)).2
  · have hrecords : skipped i = false ↔ ¬ Skips vars (totalBefore vars concepts i) c := by
      rw [← not_recordsAt_iff_skips hc, not_not]
      simp [skipped]
    rw [hrecords]
    rcases skips_or_takes vars (totalBefore vars concepts i) c with hskips | ⟨sum, htakes⟩
    · refine iff_of_false (not_not.2 hskips) ?_
      rintro ⟨hpays, sum, hsum⟩
      exact Takes.not_skips ⟨hpays, hsum⟩ hskips
    · exact iff_of_true htakes.not_skips ⟨htakes.1, sum, htakes.2⟩
  · have hall := hkept concepts.length le_rfl
    rwa [List.take_length] at hall

end Phase

namespace Line

variable {config : EngineConfig} {key : RunKey} {catalog : List Concept} {worker : Worker}
  {line : Line}

/-- **The applications of a computed line** come type by type. -/
theorem applications_of_compute (h : compute config key (.ofConcepts catalog) worker = .ok line) :
    line.applications = line.applicationsOf .earning ++ line.applicationsOf .deduction
      ++ line.applicationsOf .employerContribution := by
  obtain ⟨salary, _, rfl⟩ := compute_eq_ok_iff.1 h
  rw [(parts_settle config key.period catalog worker salary .earning).1,
    (parts_settle config key.period catalog worker salary .deduction).1,
    (parts_settle config key.period catalog worker salary .employerContribution).1]
  rfl

/-- Every total is an amount of money, and net pay is a number of cents. -/
theorem figures_of_compute {plan : ConceptPlan} (h : compute config key plan worker = .ok line) :
    (∀ t, (line.totalOf t).IsAmount) ∧ line.netPay.WholeCents := by
  obtain ⟨salary, _, rfl⟩ := compute_eq_ok_iff.1 h
  obtain ⟨hearnings, hdeductions, hcontributions⟩ :=
    totals_isAmount_settle config key.period plan worker salary
  obtain ⟨net, _, hpay, _⟩ := netPay_settle config key.period plan worker salary
  refine ⟨fun t => ?_, ?_⟩
  · cases t with
    | earning => exact hearnings
    | deduction => exact hdeductions
    | employerContribution => exact hcontributions
  · rw [hpay]
    exact Decimal.wholeCents_of_scale_le (scale_roundMoney_le net)

/-- **The shape of a computed line.**  Its applications are those of earnings, then those of
    deductions, then those of employer contributions; each part follows the concepts of its type in
    the plan.  A place of the plan is recorded if and only if what is paid there is not zero and
    does not overflow the total of what is recorded before it in its phase.  Every amount is
    positive, no total is negative, and all of these and net pay are whole cents. -/
theorem compute_shape (h : compute config key (.ofConcepts catalog) worker = .ok line) :
    let plan := ConceptPlan.ofConcepts catalog
    line.applications = line.applicationsOf .earning ++ line.applicationsOf .deduction
        ++ line.applicationsOf .employerContribution ∧
      (∀ t, ((line.applicationsOf t).map fun a => (a.code, a.conceptId, a.name)).Sublist
        ((plan.ofType t).map fun c => (c.code, c.id, c.name))) ∧
      (∃ salary, config.scaledSalary worker key.payrollType = .ok salary ∧ ∀ t,
        let vars := varsOf config key.period plan worker salary t
        ∃ skipped, Phase.SkipsPlaces vars (plan.ofType t) skipped ∧
          line.applicationsOf t = (keptOf skipped (plan.ofType t)).map fun c =>
            c.application (roundMoney (c.amount vars))) ∧
      (∀ a ∈ line.applications, 0 < a.amount.value ∧ a.amount.WholeCents) ∧
      (∀ t, 0 ≤ (line.totalOf t).value ∧ (line.totalOf t).WholeCents) ∧ line.netPay.WholeCents := by
  intro plan
  obtain ⟨salary, hsalary, hparts⟩ := parts_of_compute h
  obtain ⟨htotals, hnet⟩ := figures_of_compute h
  refine ⟨applications_of_compute h, fun t => ?_, ⟨salary, hsalary, fun t => ?_⟩, fun a ha => ?_,
    fun t => ⟨Decimal.value_nonneg (htotals t).nonneg, (htotals t).wholeCents⟩, hnet⟩
  · rw [(hparts t).1, List.map_map]
    exact (Phase.paid_spec _ .zero _).1.map _
  · intro vars
    obtain ⟨skipped, hskipped, hpaid⟩ := Phase.paid_spec_places vars (plan.ofType t)
    exact ⟨skipped, hskipped, hpaid ▸ (hparts t).1⟩
  · -- Every application stands in the part of its own type.
    have hpart : a ∈ line.applicationsOf a.conceptType :=
      List.mem_filter.2 ⟨ha, beq_self_eq_true _⟩
    rw [(hparts a.conceptType).1, List.mem_map] at hpart
    obtain ⟨c, hc, hamount⟩ := hpart
    have hpays := (Phase.paid_spec _ .zero _).2 c hc
    rw [← hamount]
    exact ⟨(c.pay_isAmount _).value_pos hpays, (c.pay_isAmount _).wholeCents⟩

theorem compute_shape_patchy :
    ∃ line,
      compute {} ⟨⟨2025, 3, by decide⟩, .regular⟩
        (.ofConcepts (patchy.earnings ++ patchy.deductions)) clerk = .ok line ∧
      (line.applicationsOf .earning).map Application.code = ["BASE"] ∧
      (line.applicationsOf .deduction).map Application.code = ["AFP"] ∧
      (∀ a ∈ line.applications, 0 < a.amount.value ∧ a.amount.WholeCents) ∧
      line.totalContributions.WholeCents ∧ line.netPay.WholeCents := by
  have hplan : ConceptPlan.ofConcepts (patchy.earnings ++ patchy.deductions) = patchy :=
    (ConceptPlan.ofConcepts_of_pairwise (by decide +kernel)).trans (by decide +kernel)
  have hcomputed : (compute {} ⟨⟨2025, 3, by decide⟩, .regular⟩ patchy
      clerk).toOption.any (fun line =>
        (line.applicationsOf .earning).map Application.code == ["BASE"]
          && (line.applicationsOf .deduction).map Application.code == ["AFP"]) = true := by
    decide +kernel
  obtain ⟨line, hline, htest⟩ := exists_ok_of_any hcomputed
  obtain ⟨hearnings, hdeductions⟩ := Bool.and_eq_true_iff.1 htest
  have hline' : compute {} ⟨⟨2025, 3, by decide⟩, .regular⟩
      (.ofConcepts (patchy.earnings ++ patchy.deductions)) clerk = .ok line := hplan.symm ▸ hline
  obtain ⟨_, _, _, hamounts, htotals, hnet⟩ := compute_shape hline'
  exact ⟨line, hline', eq_of_beq hearnings, eq_of_beq hdeductions, hamounts,
    (htotals .employerContribution).2, hnet⟩

end Line

end Payroll
