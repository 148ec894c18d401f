import Payroll.Concept

namespace Payroll

/-!
# The plan of a run

The concepts in use, grouped by type and brought into the sequence of their evaluation.

Main definitions:

* `Concept.precedes`: the order of evaluation.
* `ConceptPlan`: three groups of concepts.
* `ConceptPlan.ofConcepts`: the plan of a catalog.
-/

/-- Is the first concept evaluated no later than the second?  Their places decide, then their
    codes by code points. -/
def Concept.precedes (a b : Concept) : Bool :=
  decide (a.order < b.order) || (a.order == b.order && decide (a.code ≤ b.code))

/-- The concepts to evaluate, each group in order. -/
structure ConceptPlan where
  earnings : List Concept
  deductions : List Concept
  contributions : List Concept
  deriving DecidableEq, Repr

namespace ConceptPlan

/-- The concepts of one type that are in use, in order; those of equal place and code stay in the
    order of the catalog. -/
def group (concepts : List Concept) (t : ConceptType) : List Concept :=
  (concepts.filter fun c => c.isActive && c.conceptType == t).mergeSort Concept.precedes

/-- The plan of a catalog. -/
def ofConcepts (concepts : List Concept) : ConceptPlan where
  earnings := group concepts .earning
  deductions := group concepts .deduction
  contributions := group concepts .employerContribution

/-- The number of concepts. -/
def size (plan : ConceptPlan) : Nat :=
  plan.earnings.length + plan.deductions.length + plan.contributions.length

/-- Is there nothing to evaluate? -/
def isEmpty (plan : ConceptPlan) : Bool := plan.size == 0

end ConceptPlan

end Payroll
