import Mathlib.Data.Prod.Lex
import Mathlib.Data.String.Basic
import Payroll.Proofs.Line.Recorded
import Payroll.Proofs.Sorting
import Payroll.Run

namespace Payroll

/-!
# The sequence of a plan

A plan holds the concepts in use, each in the group of its type and at the place that its order and
its code give it.  The order of the catalog counts only between concepts of equal order and code.

* `Concept.place`, `Concept.precedes_eq` — the order of evaluation is that of places.
* `Concept.Ties` — two concepts in use that only the catalog can put in order.
* `ConceptPlan.ofType_perm`, `ConceptPlan.pairwise_ofType`, `ConceptPlan.filter_ofType` — a group
  holds the concepts of its type, sorted by place, and those of one place as they come.
* `ConceptPlan.ofConcepts_eq_of_perm` — without ties, the plan of a catalog in another order
  is the same.
* `ConceptPlan.ofConcepts_sequence` — **a plan does not depend on the order of its catalog**.
-/

namespace Concept

/-! ### Places -/

/-- The place of a concept in the sequence of evaluation: its order, then its code by code
    points. -/
def place (c : Concept) : ℤ ×ₗ List ℕ := toLex (c.order.toInt, c.code.toList.map Char.toNat)

/-- Two concepts in use have the same type, order and code. -/
def Ties (a b : Concept) : Prop :=
  a.isActive = true ∧ b.isActive = true ∧ a.conceptType = b.conceptType ∧ a.order = b.order ∧
    a.code = b.code

instance : DecidableRel Ties := fun _ _ => inferInstanceAs (Decidable (_ ∧ _))

/-- Code points are in the order of the characters. -/
theorem strictMono_map_toNat : StrictMono (List.map Char.toNat) :=
  fun _ _ hlt => List.map_lt (fun _ _ hchar => hchar) hlt

theorem place_le_iff {a b : Concept} :
    a.place ≤ b.place ↔ a.order < b.order ∨ a.order = b.order ∧ a.code ≤ b.code := by
  rw [place, place, Prod.Lex.toLex_le_toLex, ← Int32.lt_iff_toInt_lt, Int32.toInt_inj,
    strictMono_map_toNat.le_iff_le, String.le_iff_toList_le]

/-- A place is an order and a code. -/
theorem place_inj {a b : Concept} : a.place = b.place ↔ a.order = b.order ∧ a.code = b.code := by
  rw [place, place, toLex_inj, Prod.mk_inj, Int32.toInt_inj, strictMono_map_toNat.injective.eq_iff,
    String.toList_inj]

/-- **The order of evaluation** is that of places. -/
theorem precedes_eq : precedes = fun a b => decide (a.place ≤ b.place) := by
  funext a b
  rw [precedes, Bool.eq_iff_iff, Bool.or_eq_true, Bool.and_eq_true, beq_iff_eq, decide_eq_true_iff,
    decide_eq_true_iff, decide_eq_true_iff, place_le_iff]

end Concept

namespace ConceptPlan

variable {catalog catalog' : List Concept}

/-! ### Groups -/

/-- The concepts of a type that are in use. -/
def inUse (catalog : List Concept) (t : ConceptType) : List Concept :=
  catalog.filter fun c => c.isActive && c.conceptType == t

theorem ofType_ofConcepts (catalog : List Concept) (t : ConceptType) :
    (ofConcepts catalog).ofType t
      = (inUse catalog t).mergeSort fun a b => decide (a.place ≤ b.place) := by
  rw [← Concept.precedes_eq]
  cases t <;> rfl

/-- **A group holds** the concepts of its type that are in use. -/
theorem ofType_perm (catalog : List Concept) (t : ConceptType) :
    ((ofConcepts catalog).ofType t).Perm (inUse catalog t) := by
  rw [ofType_ofConcepts]
  exact List.mergeSort_perm _ _

/-- **A group is sorted** by place. -/
theorem pairwise_ofType (catalog : List Concept) (t : ConceptType) :
    ((ofConcepts catalog).ofType t).Pairwise fun a b => a.place ≤ b.place := by
  rw [ofType_ofConcepts]
  exact pairwise_mergeSort_key Concept.place _

/-- **Concepts of equal order and code** stay as they come. -/
theorem filter_ofType (catalog : List Concept) (t : ConceptType) (order : Int32) (code : String) :
    ((ofConcepts catalog).ofType t).filter (fun c => c.order == order && c.code == code)
      = (inUse catalog t).filter fun c => c.order == order && c.code == code := by
  rw [ofType_ofConcepts]
  refine filter_mergeSort_key Concept.place fun a _ b _ ha hb => ?_
  rw [Bool.and_eq_true, beq_iff_eq, beq_iff_eq] at ha hb
  exact Concept.place_inj.2 ⟨ha.1.trans hb.1.symm, ha.2.trans hb.2.symm⟩

/-- The groups together hold every concept in use once. -/
theorem groups_perm (catalog : List Concept) :
    let plan := ofConcepts catalog
    (plan.earnings ++ plan.deductions ++ plan.contributions).Perm
      (catalog.filter Concept.isActive) := by
  intro plan
  have hgroups : (ConceptType.all.flatMap plan.ofType).Perm
      (ConceptType.all.flatMap fun t => (catalog.filter Concept.isActive).filter
        fun c => c.conceptType == t) := by
    refine List.Perm.flatMap_left _ fun t _ => ?_
    rw [List.filter_filter]
    refine (ofType_perm catalog t).trans (List.Perm.of_eq ?_)
    exact List.filter_congr fun c _ => Bool.and_comm _ _
  have hall : ∀ c ∈ catalog.filter Concept.isActive, c.conceptType ∈ ConceptType.all := by
    intro c _
    cases c.conceptType <;> decide
  have hflat : ConceptType.all.flatMap plan.ofType
      = plan.earnings ++ plan.deductions ++ plan.contributions := by
    simp [ConceptType.all, ofType]
  rw [← hflat]
  exact hgroups.trans (flatMap_filter_perm (by decide) hall)

/-! ### Catalogs without ties -/

/-- Without ties, the concepts of a group have different places. -/
theorem nodup_place (hties : catalog.Pairwise fun a b => ¬ a.Ties b) (t : ConceptType) :
    ((inUse catalog t).map Concept.place).Nodup := by
  rw [List.Nodup, List.pairwise_map, inUse, List.pairwise_filter]
  refine hties.imp fun hab ha hb hplace => hab ?_
  rw [Bool.and_eq_true, beq_iff_eq] at ha hb
  exact ⟨ha.1, hb.1, ha.2.trans hb.2.symm, Concept.place_inj.1 hplace⟩

/-- **Without ties**, the plan of a catalog in another order is the same. -/
theorem ofConcepts_eq_of_perm (hperm : catalog'.Perm catalog)
    (hties : catalog.Pairwise fun a b => ¬ a.Ties b) :
    ofConcepts catalog' = ofConcepts catalog := by
  have hgroup : ∀ t, (ofConcepts catalog').ofType t = (ofConcepts catalog).ofType t := by
    intro t
    rw [ofType_ofConcepts, ofType_ofConcepts]
    exact mergeSort_key_eq_of_perm Concept.place (hperm.filter _) (nodup_place hties t)
  rw [ConceptPlan.mk.injEq]
  exact ⟨hgroup .earning, hgroup .deduction, hgroup .employerContribution⟩

/-- **A plan does not depend on the order of its catalog.**  Its groups hold the concepts in use,
    none lost and none twice, each in the group of its type, sorted by order and then by the code
    points of the code; those of equal order and code stay as they come.  If no two concepts in use
    have the same type, order and code, then a catalog in any other order gives the same plan, the
    same lines and the same runs. -/
theorem ofConcepts_sequence (catalog : List Concept) :
    let plan := ofConcepts catalog
    (plan.earnings ++ plan.deductions ++ plan.contributions).Perm
      (catalog.filter Concept.isActive) ∧
      (∀ t, (plan.ofType t).Perm (inUse catalog t) ∧
        ((plan.ofType t).Pairwise fun a b => a.place ≤ b.place) ∧
        ∀ order code, (plan.ofType t).filter (fun c => c.order == order && c.code == code)
          = (inUse catalog t).filter fun c => c.order == order && c.code == code) ∧
      ∀ catalog', catalog'.Perm catalog → (catalog.Pairwise fun a b => ¬ a.Ties b) →
        ofConcepts catalog' = plan ∧
        (∀ config key worker, Line.compute config key (ofConcepts catalog') worker
          = Line.compute config key plan worker) ∧
        ∀ config key scope workers now,
          PayrollRun.preview config key scope workers (ofConcepts catalog') now
            = PayrollRun.preview config key scope workers plan now := by
  intro plan
  refine ⟨groups_perm catalog, fun t => ⟨ofType_perm catalog t, pairwise_ofType catalog t,
    filter_ofType catalog t⟩, fun catalog' hperm hties => ?_⟩
  have hplan : ofConcepts catalog' = plan := ofConcepts_eq_of_perm hperm hties
  rw [hplan]
  exact ⟨rfl, fun _ _ _ => rfl, fun _ _ _ _ _ => rfl⟩

/-- Two earnings of equal order, a deduction of the order and code of one of them, another deduction
    ahead of them all, and an earning that would tie if it were in use. -/
def ledger : List Concept :=
  [⟨"c4", "AFP", "Pension", .deduction, .percentage (some (.ofNat 13)), -3, .active⟩,
    ⟨"c2", "ALFA", "Allowance", .earning, .fixed (some (.ofNat 50)), 1, .active⟩,
    ⟨"c3", "ALFA", "Old allowance", .earning, .fixed (some (.ofNat 40)), 1, .inactive⟩,
    ⟨"c5", "ALFA", "Allowance tax", .deduction, .fixed (some (.ofNat 5)), 1, .active⟩,
    ⟨"c1", "BASE", "Base", .earning, .formula "BASIC_SALARY", 1, .active⟩]

theorem ofConcepts_sequence_ledger :
    let shuffled := ledger.reverse.rotate 2
    let plan := ofConcepts shuffled
    plan.earnings.map Concept.id = ["c2", "c1"] ∧ plan.deductions.map Concept.id = ["c4", "c5"] ∧
      plan.contributions = [] ∧
      ∀ worker, Line.compute {} ⟨⟨2025, 3, by decide⟩, .regular⟩ plan worker
        = Line.compute {} ⟨⟨2025, 3, by decide⟩, .regular⟩ (ofConcepts ledger) worker := by
  intro shuffled plan
  obtain ⟨_, _, hcatalogs⟩ := ofConcepts_sequence ledger
  obtain ⟨hplan, hlines, _⟩ := hcatalogs shuffled (by decide +kernel) (by decide +kernel)
  have hsorted : plan = ⟨[ledger[1], ledger[4]], [ledger[0], ledger[3]], []⟩ :=
    hplan.trans ((ofConcepts_of_pairwise (by decide +kernel)).trans (by decide +kernel))
  rw [hsorted]
  exact ⟨by decide +kernel, by decide +kernel, rfl, fun worker => hsorted ▸ hlines _ _ worker⟩

end ConceptPlan

end Payroll
