import Payroll.Concept
import Payroll.Document.Staff

namespace Payroll

/-!
# Concepts in documents

The rule of a concept is kept flat: its kind is named by one field, and what belongs to the kind
stands beside it.  Fields that belong to other kinds do not matter.

Main definitions:

* `RuleKind`: the kinds of rule, with their labels.
* `Rule.toDocument`, `Rule.ofDocument?`: a rule of its own.
* `Concept.toDocument`, `Concept.ofDocument?`: a concept with its rule.
-/

open Document

/-- A label of a type. -/
def ConceptType.ofDocument? : Document → Option ConceptType := toLabel? all label

/-! ### Kinds of rule -/

/-- The kinds of rule. -/
inductive RuleKind where
  | fixed | percentage | formula | manual
  deriving DecidableEq, Repr

namespace RuleKind

/-- All kinds in their order. -/
def all : List RuleKind := [fixed, percentage, formula, manual]

/-- The label of a kind. -/
def label : RuleKind → String
  | fixed => "fixed"
  | percentage => "percentage"
  | formula => "formula_driven"
  | manual => "manual_variable"

/-- The field that names the kind. -/
def field : String := "calculation_type"

/-- The kind of a label. -/
def ofLabel? : Document → Option RuleKind
  | .text s => all.find? fun k => k.label == s
  | _ => none

/-- The kind of a label or of a place in the order. -/
def ofLabelOrPlace? (d : Document) : Option RuleKind :=
  match d.toUnsigned? with
  | some n => all[n]?
  | none => ofLabel? d.resolve

end RuleKind

/-! ### Rules -/

namespace Rule

/-- The kind of a rule. -/
def kind : Rule → RuleKind
  | fixed _ => .fixed
  | percentage _ => .percentage
  | formula _ => .formula
  | manual => .manual

/-- A decimal that may be unset. -/
def toSetting? (d : Document) : Option (Option Decimal) :=
  match d.resolve with
  | .null => some none
  | d => d.toDecimal?.map some

/-- A decimal that may be unset. -/
def ofSetting : Option Decimal → Document
  | none => .null
  | some d => .ofDecimal d

/-- The text of a formula; a bare number is none. -/
def toExpression? (d : Document) : Option String :=
  match d.resolve with
  | .text s => some s
  | _ => none

/-- The entries of a rule. -/
def entries (rule : Rule) : List (String × Document) :=
  (RuleKind.field, .text rule.kind.label) ::
    match rule with
    | fixed value => [("fixed_value", ofSetting value)]
    | percentage rate => [("percentage_rate", ofSetting rate)]
    | formula expression => [("formula_expression", .text expression)]
    | manual => []

/-- A rule as a record. -/
def toDocument (rule : Rule) : Document := .record rule.entries

/-- Reads what belongs to a kind. -/
def ofKind? (kind : RuleKind) (d : Document) : Option Rule :=
  match kind with
  | .fixed => do
    let fields ← d.fields? ["fixed_value"]
    return fixed (← optional fields "fixed_value" none toSetting?)
  | .percentage => do
    let fields ← d.fields? ["percentage_rate"]
    return percentage (← optional fields "percentage_rate" none toSetting?)
  | .formula => do
    let fields ← d.fields? ["formula_expression"]
    return formula (← required fields "formula_expression" toExpression?)
  | .manual => do
    let _ ← d.fields? []
    return manual

/-- Reads the rule among entries, of which exactly one names its kind. -/
def ofEntries? (kind : Document → Option RuleKind) (entries : List (String × Document)) :
    Option Rule :=
  match entries.filter fun e => e.1 == RuleKind.field with
  | [(_, d)] => do
    let k ← kind d
    ofKind? k (.record (entries.filter fun e => e.1 != RuleKind.field))
  | _ => none

/-- Reads a rule, from a record or from a list that starts with the kind. -/
def ofDocument? : Document → Option Rule
  | .record entries => ofEntries? RuleKind.ofLabel? entries
  | .list (d :: rest) => do
    let k ← RuleKind.ofLabel? d
    ofKind? k (.list rest)
  | _ => none

end Rule

/-! ### Concepts -/

namespace Concept

/-- The fields of a concept, those of its rule apart. -/
def fieldNames : List String := ["id", "code", "name", "concept_type", "order", "status"]

/-- A concept as a record. -/
def toDocument (c : Concept) : Document :=
  .record
    ([("id", .text c.id),
      ("code", .text c.code),
      ("name", .text c.name),
      ("concept_type", .text c.conceptType.label)] ++
     c.rule.entries ++
     [("order", .integer c.order.toInt),
      ("status", .text c.status.label)])

/-- How deep the values of a concept's other fields may be nested: files are read to a depth of 128,
    three of which lead to the fields of a concept. -/
def maxDepth : Nat := 125

/-- Reads a concept.  The values of its other fields are held until its rule is known. -/
def ofDocument? (d : Document) : Option Concept := do
  let entries ← d.entries?
  let fields ← select? fieldNames entries
  let others := entries.filter fun e => !fieldNames.contains e.1
  if !others.all fun e => e.2.isHeld maxDepth then none
  return { id := ← required fields "id" toText?
           code := ← required fields "code" toText?
           name := ← required fields "name" toText?
           conceptType := ← required fields "concept_type" ConceptType.ofDocument?
           rule := ← Rule.ofEntries? RuleKind.ofLabelOrPlace? others
           order := ← optional fields "order" 0 toInt32?
           status := ← optional fields "status" .active Status.ofDocument? }

end Concept

end Payroll
