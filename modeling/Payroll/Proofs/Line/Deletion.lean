import Mathlib.Data.List.Induction
import Payroll.Proofs.Line.Recorded

namespace Payroll

/-!
# Concepts that record nothing

A concept that records nothing leaves no trace: without it, the plan gives the same line.  Why it
records nothing does not matter.

* `Phase.RecordsAt` — going through the concept at a place records an application, and
  `Phase.not_recordsAt_iff`, why it does not.
* `Phase.paid_eq_filter`, `Phase.applications_ofConcepts` — a phase is made up of what is recorded
  at its places.
* `Phase.ofConcepts_keptOf` — a phase is the same without the concepts that record nothing.
* `Line.compute_without` — **deleting what records nothing leaves the line unchanged**.
-/

namespace Phase

variable {vars : Variables} {concepts : List Concept} {c : Concept} {i : Nat}

/-! ### Places -/

/-- The total in front of a place, which is not rounded. -/
def totalBefore (vars : Variables) (concepts : List Concept) (i : Nat) : Decimal :=
  (record vars .zero (concepts.take i)).total

/-- The concept at a place records an application: with it, the phase has others than without it. -/
def RecordsAt (vars : Variables) (concepts : List Concept) (i : Nat) : Prop :=
  (ofConcepts vars (concepts.take (i + 1))).applications
    ≠ (ofConcepts vars (concepts.take i)).applications

instance (vars : Variables) (concepts : List Concept) (i : Nat) :
    Decidable (RecordsAt vars concepts i) :=
  inferInstanceAs (Decidable (_ ≠ _))

/-- Going through two lists of concepts, one after the other. -/
theorem record_append (vars : Variables) (total : Decimal) (first rest : List Concept) :
    record vars total (first ++ rest)
      = ⟨(record vars total first).applications
          ++ (record vars (record vars total first).total rest).applications,
        (record vars (record vars total first).total rest).total⟩ := by
  induction first generalizing total with
  | nil => rfl
  | cons c cs ih =>
    rw [List.cons_append]
    rcases skips_or_takes vars total c with hskips | ⟨sum, htakes⟩
    · rw [record_of_skips hskips, record_of_skips hskips, ih]
    · rw [record_of_takes htakes, record_of_takes htakes, ih]
      rfl

/-- So it is for the concepts that are recorded. -/
theorem paid_append (vars : Variables) (total : Decimal) (first rest : List Concept) :
    paid vars total (first ++ rest)
      = paid vars total first ++ paid vars (record vars total first).total rest := by
  induction first generalizing total with
  | nil => rfl
  | cons c cs ih =>
    rw [List.cons_append]
    rcases skips_or_takes vars total c with hskips | ⟨sum, htakes⟩
    · rw [paid_of_skips hskips, paid_of_skips hskips, record_of_skips hskips, ih]
    · rw [paid_of_takes htakes, paid_of_takes htakes, record_of_takes htakes, ih, List.cons_append]

/-- A concept records nothing where it leaves the phase as it was. -/
theorem not_recordsAt_iff_skips (h : concepts[i]? = some c) :
    ¬ RecordsAt vars concepts i ↔ Skips vars (totalBefore vars concepts i) c := by
  have hone : ¬ RecordsAt vars concepts i
      ↔ (record vars (totalBefore vars concepts i) [c]).applications = [] := by
    rw [RecordsAt, not_not, List.take_add_one, h, Option.toList_some, ofConcepts, ofConcepts,
      record_append, List.append_right_eq_self]
    rfl
  rw [hone]
  rcases skips_or_takes vars (totalBefore vars concepts i) c with hskips | ⟨sum, htakes⟩
  · rw [record_of_skips hskips]
    exact iff_of_true rfl hskips
  · rw [record_of_takes htakes]
    exact iff_of_false (List.cons_ne_nil _ _) htakes.not_skips

/-- Concepts behind a place do not matter for what is recorded there. -/
theorem recordsAt_append (h : i < concepts.length) (rest : List Concept) :
    RecordsAt vars (concepts ++ rest) i ↔ RecordsAt vars concepts i := by
  rw [RecordsAt, RecordsAt, List.take_append_of_le_length h, List.take_append_of_le_length h.le]

/-- The concepts that are recorded are those at the places that record something, in their order. -/
theorem paid_eq_filter (vars : Variables) (concepts : List Concept) :
    paid vars .zero concepts
      = (concepts.zipIdx.filter fun x => decide (RecordsAt vars concepts x.2)).map Prod.fst := by
  -- From the left to the right, as what is recorded at a place does not depend on what follows.
  induction concepts using List.reverseRecOn with
  | nil => rfl
  | append_singleton cs c ih =>
    have hlast : (cs ++ [c])[cs.length]? = some c := List.getElem?_concat_length
    have htotal : totalBefore vars (cs ++ [c]) cs.length = (record vars .zero cs).total := by
      rw [totalBefore, List.take_left]
    have hbefore : (cs.zipIdx.filter fun x => decide (RecordsAt vars (cs ++ [c]) x.2))
        = cs.zipIdx.filter fun x => decide (RecordsAt vars cs x.2) := by
      refine List.filter_congr fun x hx => ?_
      have hlt : x.2 < cs.length := by simpa using (List.mem_zipIdx hx).2.1
      simp only [recordsAt_append hlt]
    rw [List.zipIdx_append, List.filter_append, List.map_append, hbefore, ← ih, paid_append]
    refine congrArg (paid vars .zero cs ++ ·) ?_
    rw [Nat.zero_add, List.zipIdx_singleton]
    rcases skips_or_takes vars (record vars .zero cs).total c with hskips | ⟨sum, htakes⟩
    · have hnot : ¬ RecordsAt vars (cs ++ [c]) cs.length :=
        (not_recordsAt_iff_skips hlast).2 (htotal.symm ▸ hskips)
      rw [paid_of_skips hskips, List.filter_cons_of_neg (by simpa using hnot)]
      rfl
    · have hrecords : RecordsAt vars (cs ++ [c]) cs.length := by
        by_contra hnot
        exact htakes.not_skips (htotal ▸ (not_recordsAt_iff_skips hlast).1 hnot)
      rw [paid_of_takes htakes, List.filter_cons_of_pos (by simpa using hrecords)]
      rfl

/-- **The applications of a phase** are those of the places that record one, in their order. -/
theorem applications_ofConcepts (vars : Variables) (concepts : List Concept) :
    (ofConcepts vars concepts).applications
      = (concepts.zipIdx.filter fun x => decide (RecordsAt vars concepts x.2)).map
          fun x => x.1.application (x.1.pay vars) := by
  rw [ofConcepts, (record_eq vars .zero concepts).1, paid_eq_filter, List.map_map]
  rfl

/-- **Why a concept records nothing**: it has no value, or one of less than half a cent, or there is
    no room for what it pays. -/
theorem not_recordsAt_iff (h : concepts[i]? = some c) :
    ¬ RecordsAt vars concepts i ↔ (∀ d, c.evaluate? vars = .ok d → d.value < 1 / 200) ∨
      (totalBefore vars concepts i).add (c.pay vars) = none := by
  rw [not_recordsAt_iff_skips h, Skips, Concept.pay_isZero_iff]

end Phase

/-! ### Deletion -/

/-- The elements of a list whose places are not deleted. -/
def keptOf {α : Type} (deleted : Nat → Bool) (xs : List α) : List α :=
  (xs.zipIdx.filter fun x => !deleted x.2).map Prod.fst

/-- The plan without the concepts at the given places. -/
def ConceptPlan.without (plan : ConceptPlan) (deleted : ConceptType → Nat → Bool) :
    ConceptPlan where
  earnings := keptOf (deleted .earning) plan.earnings
  deductions := keptOf (deleted .deduction) plan.deductions
  contributions := keptOf (deleted .employerContribution) plan.contributions

namespace Phase

variable {vars : Variables} {concepts : List Concept} {deleted : Nat → Bool}

/-- Going through the concepts at the places from `n` on that are not deleted comes to the same as
    going through all of them. -/
theorem record_filter_zipIdx (total : Decimal) (n : Nat)
    (h : ∀ i c, concepts[i]? = some c → deleted (n + i) = true →
      Skips vars (record vars total (concepts.take i)).total c) :
    record vars total (((concepts.zipIdx n).filter fun x => !deleted x.2).map Prod.fst)
      = record vars total concepts := by
  induction concepts generalizing total n with
  | nil => rfl
  | cons c cs ih =>
    have hshift : ∀ i, n + 1 + i = n + (i + 1) := fun i => by omega
    rw [List.zipIdx_cons]
    rcases skips_or_takes vars total c with hskips | ⟨sum, htakes⟩
    · -- What leaves the phase as it was may be deleted or not.
      have hrest := ih total (n + 1) fun i c' hc' hdeleted => by
        have hlater := h (i + 1) c' hc' (hshift i ▸ hdeleted)
        rwa [List.take_succ_cons, record_of_skips hskips] at hlater
      rw [record_of_skips hskips]
      cases hc : deleted n with
      | true => rwa [List.filter_cons_of_neg (by simp [hc])]
      | false =>
        rw [List.filter_cons_of_pos (by simp [hc]), List.map_cons, record_of_skips hskips, hrest]
    · have hrest := ih sum (n + 1) fun i c' hc' hdeleted => by
        have hlater := h (i + 1) c' hc' (hshift i ▸ hdeleted)
        rwa [List.take_succ_cons, record_of_takes htakes] at hlater
      -- What is recorded is not among the deleted ones.
      have hkept : deleted n = false := by
        rw [← Bool.not_eq_true]
        exact fun hc => htakes.not_skips (h 0 c rfl hc)
      rw [List.filter_cons_of_pos (by simp [hkept]), List.map_cons, record_of_takes htakes,
        record_of_takes htakes, hrest]

/-- **A phase** is the same without the concepts that record nothing. -/
theorem ofConcepts_keptOf
    (h : ∀ i < concepts.length, deleted i = true → ¬ RecordsAt vars concepts i) :
    ofConcepts vars (keptOf deleted concepts) = ofConcepts vars concepts := by
  have hskips : ∀ i c, concepts[i]? = some c → deleted (0 + i) = true →
      Skips vars (record vars .zero (concepts.take i)).total c := by
    intro i c hc hdeleted
    rw [Nat.zero_add] at hdeleted
    obtain ⟨hi, _⟩ := List.getElem?_eq_some_iff.1 hc
    exact (not_recordsAt_iff_skips hc).1 (h i hi hdeleted)
  rw [ofConcepts, ofConcepts, keptOf, record_filter_zipIdx _ _ hskips]

end Phase

namespace Line

/-- Without concepts that record nothing, the line of a given salary is the same. -/
theorem settle_without {config : EngineConfig} {period : Period} {plan : ConceptPlan}
    {worker : Worker} {salary : Decimal} {deleted : ConceptType → Nat → Bool}
    (h : ∀ t, ∀ i < (plan.ofType t).length, deleted t i = true →
      ¬ Phase.RecordsAt (varsOf config period plan worker salary t) (plan.ofType t) i) :
    settle config period (plan.without deleted) worker salary
      = settle config period plan worker salary := by
  have hphase : ∀ t, Phase.ofConcepts (varsOf config period plan worker salary t)
        (keptOf (deleted t) (plan.ofType t))
      = Phase.ofConcepts (varsOf config period plan worker salary t) (plan.ofType t) :=
    fun t => Phase.ofConcepts_keptOf (h t)
  have hearnings := hphase .earning
  have hdeductions := hphase .deduction
  have hcontributions := hphase .employerContribution
  simp only [varsOf, ConceptPlan.ofType] at hearnings hdeductions hcontributions
  -- The same earnings leave the same total to the later phases.
  simp only [settle, ConceptPlan.without, hearnings, hdeductions, hcontributions]

/-- **Deleting what records nothing leaves the line unchanged.**  Of the concepts of a plan,
    those record nothing that have no value, or one of less than half a cent, negative ones
    included, and those for which their phase has no room.  Whichever of these are deleted, the
    result is the same. -/
theorem compute_without (config : EngineConfig) (key : RunKey) (plan : ConceptPlan)
    (worker : Worker) :
    (∀ vars t i c, (plan.ofType t)[i]? = some c →
      (¬ Phase.RecordsAt vars (plan.ofType t) i ↔
        (∀ d, c.evaluate? vars = .ok d → d.value < 1 / 200) ∨
          (Phase.totalBefore vars (plan.ofType t) i).add (c.pay vars) = none)) ∧
    ∀ deleted : ConceptType → Nat → Bool,
      (∀ salary, config.scaledSalary worker key.payrollType = .ok salary →
        ∀ t, ∀ i < (plan.ofType t).length, deleted t i = true →
          ¬ Phase.RecordsAt (varsOf config key.period plan worker salary t) (plan.ofType t) i) →
      compute config key (plan.without deleted) worker = compute config key plan worker := by
  refine ⟨fun vars t i c hc => Phase.not_recordsAt_iff hc, fun deleted h => ?_⟩
  unfold compute
  cases hsalary : config.scaledSalary worker key.payrollType with
  | error e => rfl
  | ok salary => exact congrArg Except.ok (settle_without (h salary hsalary))

/-- An earning of one hundred among others that record nothing, and a share of the earnings. -/
def patchy : ConceptPlan where
  earnings :=
    [⟨"c1", "ZERO", "Division by zero", .earning, .formula "100 / (1 - 1)", 1, .active⟩,
      ⟨"c2", "TEXT", "Malformed", .earning, .formula "1 +* 2", 2, .active⟩,
      ⟨"c3", "BASE", "Base", .earning, .percentage (some .hundred), 3, .active⟩,
      ⟨"c4", "NAME", "Unknown name", .earning, .formula "TOTAL_EARNINGS * 2", 4, .active⟩,
      ⟨"c5", "LESS", "Negative", .earning, .formula "-5", 5, .active⟩,
      ⟨"c6", "TINY", "Less than half a cent", .earning, .formula "0.0049", 6, .active⟩,
      ⟨"c7", "HAND", "By hand", .earning, .manual, 7, .active⟩,
      ⟨"c8", "MUCH", "No room", .earning, .fixed (some (.ofNat Decimal.maxCoefficient)), 8,
        .active⟩]
  deductions :=
    [⟨"c9", "NONE", "Nothing", .deduction, .fixed none, 9, .active⟩,
      ⟨"c10", "AFP", "Pension", .deduction, .percentage (some (.ofNat 13)), 10, .active⟩]
  contributions := []

theorem compute_without_patchy :
    let deleted : ConceptType → Nat → Bool :=
      fun t i => decide (t = .earning ∧ i ≠ 2 ∨ t = .deduction ∧ i = 0)
    (patchy.without deleted).earnings.map Concept.code = ["BASE"] ∧
      (patchy.without deleted).deductions.map Concept.code = ["AFP"] ∧
      ∃ line, compute {} ⟨⟨2025, 3, by decide⟩, .regular⟩ (patchy.without deleted) clerk
          = .ok line ∧
        compute {} ⟨⟨2025, 3, by decide⟩, .regular⟩ patchy clerk = .ok line ∧
        line.netPay = ⟨false, 8700, 2, by decide, by decide⟩ := by
  intro deleted
  have hnothing : ∀ salary, EngineConfig.scaledSalary {} clerk .regular = .ok salary →
      ∀ t ∈ ConceptType.all, ∀ i < (patchy.ofType t).length, deleted t i = true →
        ¬ Phase.RecordsAt (varsOf {} ⟨2025, 3, by decide⟩ patchy clerk salary t)
          (patchy.ofType t) i := by
    decide +kernel
  have hsame := (compute_without {} ⟨⟨2025, 3, by decide⟩, .regular⟩ patchy clerk).2 deleted
    fun salary hsalary t => hnothing salary hsalary t (by cases t <;> decide)
  have hcomputed : (compute {} ⟨⟨2025, 3, by decide⟩, .regular⟩ (patchy.without deleted)
      clerk).toOption.any (fun line => line.netPay == ⟨false, 8700, 2, by decide, by decide⟩)
        = true := by
    decide +kernel
  obtain ⟨line, hline, hnet⟩ := exists_ok_of_any hcomputed
  exact ⟨by decide +kernel, by decide +kernel, line, hline, hsame ▸ hline, eq_of_beq hnet⟩

end Line

end Payroll
