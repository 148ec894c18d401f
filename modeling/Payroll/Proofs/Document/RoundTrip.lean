import Payroll.Proofs.Document.Parts

namespace Payroll

/-!
# Documents are read back

Whatever is written as a document is read back.  Only the sign of a zero is lost on the way: it is
written, but a zero that is read takes none.

* `Form` — how the values of a type stand in documents, with their decimals and with what is left of
  them when zeros have no sign.
* `Form.Sound` — what has to be seen of a form; `Form.Sound.readsBack`, what follows from it.
* `Concept.form`, `Worker.form`, …, `PayrollType.form` — the forms.
* `documents_readBack` — **all of them are read back**.
* `faint_not_readBack` — a document whose value has a zero with a sign.
-/

open Document

/-! ### Forms -/

/-- How the values of a type stand in documents. -/
structure Form (α : Type) where
  write : α → Document
  read? : Document → Option α
  /-- All decimals of a value. -/
  decimals : α → List Decimal
  /-- The value whose zeros have no sign, and that is otherwise the same. -/
  plain : α → α

namespace Form

variable {α : Type} {F : Form α}

/-- What has to be seen of a form. -/
structure Sound (F : Form α) : Prop where
  read_write : ∀ x, F.read? (F.write x) = some (F.plain x)
  decimals_plain : ∀ x, F.decimals (F.plain x) = (F.decimals x).map Decimal.dropZeroSign
  plain_of_decimals : ∀ x, (∀ d ∈ F.decimals x, d.HasPlainZero) → F.plain x = x

/-- Values are read back. -/
structure ReadsBack (F : Form α) : Prop where
  /-- They are read back as they are exactly if there is no negative zero. -/
  exact_iff : ∀ x, F.read? (F.write x) = some x ↔ ∀ d ∈ F.decimals x, d.HasPlainZero
  /-- A value that was read from any document is written and read again with plain zeros. -/
  again : ∀ document x, F.read? document = some x → F.read? (F.write x) = some (F.plain x)
  /-- With plain zeros, nothing changes any more. -/
  settled : ∀ x, F.read? (F.write (F.plain x)) = some (F.plain x)
  /-- Decimals other than zeros stay. -/
  decimals_plain : ∀ x, F.decimals (F.plain x) = (F.decimals x).map Decimal.dropZeroSign

theorem Sound.plain_eq_self_iff (h : F.Sound) {x : α} :
    F.plain x = x ↔ ∀ d ∈ F.decimals x, d.HasPlainZero := by
  refine ⟨fun hplain => ?_, h.plain_of_decimals x⟩
  have hdecimals := h.decimals_plain x
  rw [hplain] at hdecimals
  intro d hd
  rw [hdecimals] at hd
  obtain ⟨d', _, rfl⟩ := List.mem_map.1 hd
  exact d'.hasPlainZero_dropZeroSign

/-- **A sound form** is read back. -/
theorem Sound.readsBack (h : F.Sound) : F.ReadsBack where
  exact_iff x := by rw [h.read_write, Option.some.injEq, h.plain_eq_self_iff]
  again _ x _ := h.read_write x
  settled x := by
    rw [h.read_write, Option.some.injEq, h.plain_eq_self_iff, h.decimals_plain]
    exact List.forall_mem_map.2 fun d _ => d.hasPlainZero_dropZeroSign
  decimals_plain := h.decimals_plain

end Form

/-! ### Concepts -/

namespace Rule

/-- The amount or the rate of a rule. -/
def decimals : Rule → List Decimal
  | fixed value => value.toList
  | percentage rate => rate.toList
  | formula _ => []
  | manual => []

/-- A rule whose zero has no sign. -/
def plain : Rule → Rule
  | fixed value => fixed (value.map Decimal.dropZeroSign)
  | percentage rate => percentage (rate.map Decimal.dropZeroSign)
  | formula expression => formula expression
  | manual => manual

theorem decimals_plain (rule : Rule) :
    rule.plain.decimals = rule.decimals.map Decimal.dropZeroSign := by
  match rule with
  | fixed none | fixed (some _) | percentage none | percentage (some _) | formula _ | manual => rfl

theorem plain_of_decimals {rule : Rule} (h : ∀ d ∈ rule.decimals, d.HasPlainZero) :
    rule.plain = rule := by
  match rule with
  | fixed none | percentage none | formula _ | manual => rfl
  | fixed (some d) | percentage (some d) =>
    rw [plain, Option.map_some, (h d List.mem_cons_self).dropZeroSign_eq]

@[simp] theorem toSetting?_ofSetting (setting : Option Decimal) :
    toSetting? (ofSetting setting) = some (setting.map Decimal.dropZeroSign) := by
  cases setting with
  | none => rfl
  | some d =>
    have hread : (text d.toString).toDecimal? = some d.dropZeroSign := toDecimal?_ofDecimal d
    exact congrArg (Option.map some) hread

/-- What belongs to the kind of a rule is read back. -/
theorem ofKind?_entries (rule : Rule) :
    ofKind? rule.kind (.record (rule.entries.filter fun e => e.1 != RuleKind.field))
      = some rule.plain := by
  cases rule with
  | fixed value =>
    refine bind_of_eq_some (fields?_singleton "fixed_value" (ofSetting value)) ?_
    exact optional_bind rfl (toSetting?_ofSetting value) rfl
  | percentage rate =>
    refine bind_of_eq_some (fields?_singleton "percentage_rate" (ofSetting rate)) ?_
    exact optional_bind rfl (toSetting?_ofSetting rate) rfl
  | formula expression =>
    refine bind_of_eq_some (fields?_singleton "formula_expression" (.text expression)) ?_
    exact required_bind rfl (rfl : toExpression? (.text expression) = some expression) rfl
  | manual => rfl

/-- **The entries of a rule** are read back. -/
theorem ofEntries?_entries (rule : Rule) :
    ofEntries? RuleKind.ofLabelOrPlace? rule.entries = some rule.plain := by
  have hkind : rule.entries.filter (fun e => e.1 == RuleKind.field)
      = [(RuleKind.field, .text rule.kind.label)] := by
    cases rule <;> rfl
  unfold ofEntries?
  simp only [hkind, RuleKind.ofLabelOrPlace?_label, Option.bind_eq_bind, Option.bind_some,
    ofKind?_entries]

end Rule

namespace Concept

/-- A concept whose zero has no sign. -/
def plain (c : Concept) : Concept := { c with rule := c.rule.plain }

/-- The entries of a rule are none of the other fields of a concept. -/
theorem contains_fieldNames_of_mem {rule : Rule} {e : String × Document} (h : e ∈ rule.entries) :
    fieldNames.contains e.1 = false := by
  have hnames : ∀ e ∈ rule.entries,
      e.1 ∈ [RuleKind.field, "fixed_value", "percentage_rate", "formula_expression"] := by
    cases rule <;> simp [Rule.entries]
  have hnone : ∀ name ∈ [RuleKind.field, "fixed_value", "percentage_rate", "formula_expression"],
      fieldNames.contains name = false := by decide
  exact hnone e.1 (hnames e h)

/-- The entries of a rule can be held. -/
theorem isHeld_of_mem {rule : Rule} {e : String × Document} (h : e ∈ rule.entries) :
    e.2.isHeld maxDepth = true := by
  have hsetting : ∀ setting, (Rule.ofSetting setting).isHeld maxDepth = true := by
    rintro (_ | _) <;> rfl
  cases rule with
  | fixed value =>
    rcases List.mem_pair.1 h with rfl | rfl
    · rfl
    · exact hsetting value
  | percentage rate =>
    rcases List.mem_pair.1 h with rfl | rfl
    · rfl
    · exact hsetting rate
  | formula expression => rcases List.mem_pair.1 h with rfl | rfl <;> rfl
  | manual =>
    obtain rfl := List.mem_singleton.1 h
    rfl

/-- **A concept is read back**: what belongs to its rule is told from its other fields. -/
theorem ofDocument?_toDocument (c : Concept) : ofDocument? c.toDocument = some c.plain := by
  let before : List (String × Document) := [("id", .text c.id), ("code", .text c.code),
    ("name", .text c.name), ("concept_type", .text c.conceptType.label)]
  let after : List (String × Document) :=
    [("order", .integer c.order.toInt), ("status", .text c.status.label)]
  -- The rule's entries stand between these, and none of them has the name of one of these.
  have hrule : c.rule.entries.filter (fun e => fieldNames.contains e.1) = [] :=
    List.filter_eq_nil_iff.2 fun e he => by
      rw [contains_fieldNames_of_mem he]
      decide
  have hknown : (before ++ c.rule.entries ++ after).filter (fun e => fieldNames.contains e.1)
      = before ++ after := by
    rw [List.filter_append, List.filter_append, hrule, List.append_nil]
    rfl
  have hfields : select? fieldNames (before ++ c.rule.entries ++ after)
      = some ⟨before ++ after, (by decide : fieldNames.Nodup)⟩ := by
    unfold select?
    simp only [hknown]
    rfl
  have hrule' : c.rule.entries.filter (fun e => !fieldNames.contains e.1) = c.rule.entries :=
    List.filter_eq_self.2 fun e he => by
      rw [contains_fieldNames_of_mem he]
      rfl
  have hothers : (before ++ c.rule.entries ++ after).filter (fun e => !fieldNames.contains e.1)
      = c.rule.entries := by
    rw [List.filter_append, List.filter_append, hrule']
    exact List.append_nil _
  have hheld : c.rule.entries.all (fun e => e.2.isHeld maxDepth) = true :=
    List.all_eq_true.2 fun e he => isHeld_of_mem he
  refine bind_of_eq_some (rfl : c.toDocument.entries? = some (before ++ c.rule.entries ++ after)) ?_
  refine bind_of_eq_some hfields ?_
  simp only [before, after] at hothers
  simp only [hothers, hheld, Bool.not_true, Bool.false_eq_true, if_false]
  refine required_bind rfl (toText?_text c.id) ?_
  refine required_bind rfl (toText?_text c.code) ?_
  refine required_bind rfl (toText?_text c.name) ?_
  refine required_bind rfl (ConceptType.ofDocument?_label c.conceptType) ?_
  refine bind_of_eq_some c.rule.ofEntries?_entries ?_
  refine optional_bind rfl (toInt32?_integer c.order) ?_
  exact optional_bind rfl (Status.ofDocument?_label c.status) rfl

/-- Concepts in documents. -/
def form : Form Concept where
  write := toDocument
  read? := ofDocument?
  decimals c := c.rule.decimals
  plain := plain

theorem form_sound : form.Sound where
  read_write := ofDocument?_toDocument
  decimals_plain c := c.rule.decimals_plain
  plain_of_decimals c h := by
    have hrule : c.rule.plain = c.rule := Rule.plain_of_decimals h
    exact congrArg (fun rule => { c with rule }) hrule

end Concept

/-! ### Workers -/

namespace Worker

/-- A worker whose salary is no negative zero. -/
def plain (w : Worker) : Worker := { w with basicSalary := w.basicSalary.dropZeroSign }

/-- **A worker is read back.** -/
theorem ofDocument?_toDocument (w : Worker) : ofDocument? w.toDocument = some w.plain := by
  refine bind_of_eq_some (fields?_record fieldNames rfl (by decide)) ?_
  refine required_bind rfl (toText?_text w.id) ?_
  refine required_bind rfl (toText?_text w.documentNumber) ?_
  refine required_bind rfl (toText?_text w.firstName) ?_
  refine required_bind rfl (toText?_text w.lastName) ?_
  refine required_bind rfl (toDecimal?_ofDecimal w.basicSalary) ?_
  refine required_bind rfl (Date.ofDocument?_text w.hireDate) ?_
  refine required_bind rfl (ContractType.ofDocument?_label w.contractType) ?_
  refine required_bind rfl (toText?_text w.personnelGroup) ?_
  refine optional_bind rfl (toUInt32?_integer w.dependents) ?_
  exact optional_bind rfl (Status.ofDocument?_label w.status) rfl

/-- Workers in documents. -/
def form : Form Worker where
  write := toDocument
  read? := ofDocument?
  decimals w := [w.basicSalary]
  plain := plain

theorem form_sound : form.Sound where
  read_write := ofDocument?_toDocument
  decimals_plain _ := rfl
  plain_of_decimals w h := by
    have hsalary := (h w.basicSalary List.mem_cons_self).dropZeroSign_eq
    exact congrArg (fun basicSalary => { w with basicSalary }) hsalary

end Worker

/-! ### Policies -/

namespace ContextDefaults

/-- Defaults without a negative zero. -/
def plain (c : ContextDefaults) : ContextDefaults where
  workedDays := c.workedDays.dropZeroSign
  overtimeHours := c.overtimeHours.dropZeroSign
  absenceDays := c.absenceDays.dropZeroSign
  extra := c.extra.mapValues Decimal.dropZeroSign

/-- The decimals of the defaults. -/
def decimals (c : ContextDefaults) : List Decimal :=
  c.workedDays :: c.overtimeHours :: c.absenceDays :: c.extra.values

/-- **Defaults are read back**, with all further constants. -/
theorem ofDocument?_toDocument (c : ContextDefaults) : ofDocument? c.toDocument = some c.plain := by
  have hextra : toTable? some toDecimal? (ofTable id ofDecimal c.extra)
      = some (c.extra.mapValues Decimal.dropZeroSign) :=
    toTable?_ofTable (fun _ => rfl) toDecimal?_ofDecimal c.extra
  refine bind_of_eq_some (fields?_record fieldNames rfl (by decide)) ?_
  refine optional_bind rfl (toDecimal?_ofDecimal c.workedDays) ?_
  refine optional_bind rfl (toDecimal?_ofDecimal c.overtimeHours) ?_
  refine optional_bind rfl (toDecimal?_ofDecimal c.absenceDays) ?_
  exact optional_bind rfl hextra rfl

theorem decimals_plain (c : ContextDefaults) :
    c.plain.decimals = c.decimals.map Decimal.dropZeroSign := by
  simp [decimals, plain]

theorem plain_of_decimals {c : ContextDefaults} (h : ∀ d ∈ c.decimals, d.HasPlainZero) :
    c.plain = c := by
  simp only [decimals, List.forall_mem_cons] at h
  obtain ⟨hworked, hovertime, habsence, hextra⟩ := h
  rw [plain, hworked.dropZeroSign_eq, hovertime.dropZeroSign_eq, habsence.dropZeroSign_eq,
    Table.mapValues_eq_self_iff.2 fun d hd => (hextra d hd).dropZeroSign_eq]

/-- Defaults in documents. -/
def form : Form ContextDefaults := ⟨toDocument, ofDocument?, decimals, plain⟩

theorem form_sound : form.Sound :=
  ⟨ofDocument?_toDocument, decimals_plain, fun _ => plain_of_decimals⟩

end ContextDefaults

namespace EngineConfig

/-- A policy without a negative zero. -/
def plain (c : EngineConfig) : EngineConfig :=
  { c with
    multipliers := c.multipliers.mapValues Decimal.dropZeroSign, defaults := c.defaults.plain }

/-- The decimals of a policy. -/
def decimals (c : EngineConfig) : List Decimal := c.multipliers.values ++ c.defaults.decimals

/-- **A policy is read back**, with all multipliers. -/
theorem ofDocument?_toDocument (c : EngineConfig) : ofDocument? c.toDocument = some c.plain := by
  have hmultipliers : toTable? PayrollType.ofLabel? toDecimal?
      (ofTable PayrollType.label ofDecimal c.multipliers)
        = some (c.multipliers.mapValues Decimal.dropZeroSign) :=
    toTable?_ofTable PayrollType.ofLabel?_label toDecimal?_ofDecimal c.multipliers
  refine bind_of_eq_some (fields?_record fieldNames rfl (by decide)) ?_
  refine optional_bind rfl hmultipliers ?_
  refine optional_bind rfl c.defaults.ofDocument?_toDocument ?_
  exact optional_bind rfl (toUInt64?_integer c.parallelThreshold) rfl

theorem decimals_plain (c : EngineConfig) :
    c.plain.decimals = c.decimals.map Decimal.dropZeroSign := by
  simp [decimals, plain, ContextDefaults.decimals_plain]

theorem plain_of_decimals {c : EngineConfig} (h : ∀ d ∈ c.decimals, d.HasPlainZero) :
    c.plain = c := by
  rw [decimals, List.forall_mem_append] at h
  rw [plain, Table.mapValues_eq_self_iff.2 fun d hd => (h.1 d hd).dropZeroSign_eq,
    ContextDefaults.plain_of_decimals h.2]

/-- Policies in documents. -/
def form : Form EngineConfig := ⟨toDocument, ofDocument?, decimals, plain⟩

theorem form_sound : form.Sound :=
  ⟨ofDocument?_toDocument, decimals_plain, fun _ => plain_of_decimals⟩

end EngineConfig

/-! ### What has no decimals -/

/-- A type whose values have no decimals. -/
def Form.ofExact {α : Type} (write : α → Document) (read? : Document → Option α) : Form α where
  write := write
  read? := read?
  decimals _ := []
  plain := id

theorem Form.ofExact_sound {α : Type} {write : α → Document} {read? : Document → Option α}
    (h : ∀ x, read? (write x) = some x) : (ofExact write read?).Sound where
  read_write := h
  decimals_plain _ := rfl
  plain_of_decimals _ _ := rfl

namespace Scope

/-- **A scope is read back**, whatever the group is called. -/
theorem ofDocument?_toDocument (s : Scope) : ofDocument? s.toDocument = some s := by
  cases s <;> rfl

/-- Scopes in documents. -/
def form : Form Scope := .ofExact toDocument ofDocument?

end Scope

/-- Periods in documents. -/
def Period.form : Form Period := .ofExact (fun p => .text p.toString) ofDocument?

/-- Types of run in documents. -/
def PayrollType.form : Form PayrollType := .ofExact (fun t => .text t.label) ofDocument?

/-! ### Runs -/

namespace Application

/-- An application whose amount is no negative zero. -/
def plain (a : Application) : Application := { a with amount := a.amount.dropZeroSign }

/-- **An application is read back.** -/
theorem ofDocument?_toDocument (a : Application) : ofDocument? a.toDocument = some a.plain := by
  refine bind_of_eq_some (fields?_record fieldNames rfl (by decide)) ?_
  refine required_bind rfl (toText?_text a.conceptId) ?_
  refine required_bind rfl (toText?_text a.code) ?_
  refine required_bind rfl (toText?_text a.name) ?_
  refine required_bind rfl (ConceptType.ofDocument?_label a.conceptType) ?_
  exact required_bind rfl (toDecimal?_ofDecimal a.amount) rfl

theorem plain_of_amount {a : Application} (h : a.amount.HasPlainZero) : a.plain = a := by
  rw [plain, h.dropZeroSign_eq]

/-- Applications in documents. -/
def form : Form Application where
  write := toDocument
  read? := ofDocument?
  decimals a := [a.amount]
  plain := plain

theorem form_sound : form.Sound where
  read_write := ofDocument?_toDocument
  decimals_plain _ := rfl
  plain_of_decimals a h := plain_of_amount (h a.amount List.mem_cons_self)

end Application

namespace Line

/-- A line without a negative zero. -/
def plain (line : Line) : Line :=
  { line with
    basicSalary := line.basicSalary.dropZeroSign
    totalEarnings := line.totalEarnings.dropZeroSign
    totalDeductions := line.totalDeductions.dropZeroSign
    totalContributions := line.totalContributions.dropZeroSign
    netPay := line.netPay.dropZeroSign
    applications := line.applications.map Application.plain }

/-- The decimals of a line, those of its applications included. -/
def decimals (line : Line) : List Decimal :=
  line.basicSalary :: line.totalEarnings :: line.totalDeductions :: line.totalContributions ::
    line.netPay :: line.applications.map Application.amount

/-- **A line is read back**, with all of its applications. -/
theorem ofDocument?_toDocument (line : Line) : ofDocument? line.toDocument = some line.plain := by
  have happlications : (line.applications.map Application.toDocument).mapM Application.ofDocument?
      = some (line.applications.map Application.plain) :=
    mapM_map_eq_some fun a _ => a.ofDocument?_toDocument
  refine bind_of_eq_some (fields?_record fieldNames rfl (by decide)) ?_
  refine required_bind rfl (toText?_text line.workerId) ?_
  refine required_bind rfl (toText?_text line.documentNumber) ?_
  refine required_bind rfl (toText?_text line.fullName) ?_
  refine required_bind rfl (toDecimal?_ofDecimal line.basicSalary) ?_
  refine required_bind rfl (toDecimal?_ofDecimal line.totalEarnings) ?_
  refine required_bind rfl (toDecimal?_ofDecimal line.totalDeductions) ?_
  refine required_bind rfl (toDecimal?_ofDecimal line.totalContributions) ?_
  refine required_bind rfl (toDecimal?_ofDecimal line.netPay) ?_
  exact required_bind rfl happlications rfl

theorem decimals_plain (line : Line) :
    line.plain.decimals = line.decimals.map Decimal.dropZeroSign := by
  have hamounts : (line.applications.map Application.plain).map Application.amount
      = (line.applications.map Application.amount).map Decimal.dropZeroSign := by
    rw [List.map_map, List.map_map]
    rfl
  rw [decimals, plain, hamounts]
  rfl

theorem plain_of_decimals {line : Line} (h : ∀ d ∈ line.decimals, d.HasPlainZero) :
    line.plain = line := by
  simp only [decimals, List.forall_mem_cons, List.forall_mem_map] at h
  obtain ⟨hsalary, hearnings, hdeductions, hcontributions, hnet, hamounts⟩ := h
  have happlications : line.applications.map Application.plain = line.applications.map id :=
    List.map_inj_left.2 fun a ha => Application.plain_of_amount (hamounts a ha)
  rw [plain, hsalary.dropZeroSign_eq, hearnings.dropZeroSign_eq, hdeductions.dropZeroSign_eq,
    hcontributions.dropZeroSign_eq, hnet.dropZeroSign_eq, happlications, List.map_id]

/-- Lines in documents. -/
def form : Form Line := ⟨toDocument, ofDocument?, decimals, plain⟩

theorem form_sound : form.Sound :=
  ⟨ofDocument?_toDocument, decimals_plain, fun _ => plain_of_decimals⟩

end Line

namespace RunTotals

/-- Totals without a negative zero. -/
def plain (t : RunTotals) : RunTotals :=
  { t with
    totalEarnings := t.totalEarnings.dropZeroSign
    totalDeductions := t.totalDeductions.dropZeroSign
    totalContributions := t.totalContributions.dropZeroSign
    netPay := t.netPay.dropZeroSign }

/-- **Totals are read back.** -/
theorem ofDocument?_toDocument (t : RunTotals) : ofDocument? t.toDocument = some t.plain := by
  refine bind_of_eq_some (fields?_record fieldNames rfl (by decide)) ?_
  refine required_bind rfl (toUnsigned?_integer t.workerCount) ?_
  refine required_bind rfl (toDecimal?_ofDecimal t.totalEarnings) ?_
  refine required_bind rfl (toDecimal?_ofDecimal t.totalDeductions) ?_
  refine required_bind rfl (toDecimal?_ofDecimal t.totalContributions) ?_
  exact required_bind rfl (toDecimal?_ofDecimal t.netPay) rfl

/-- Totals in documents. -/
def form : Form RunTotals where
  write := toDocument
  read? := ofDocument?
  decimals t := [t.totalEarnings, t.totalDeductions, t.totalContributions, t.netPay]
  plain := plain

theorem form_sound : form.Sound where
  read_write := ofDocument?_toDocument
  decimals_plain _ := rfl
  plain_of_decimals t h := by
    simp only [form, List.forall_mem_cons] at h
    obtain ⟨hearnings, hdeductions, hcontributions, hnet, _⟩ := h
    exact show t.plain = t by
      rw [plain, hearnings.dropZeroSign_eq, hdeductions.dropZeroSign_eq,
        hcontributions.dropZeroSign_eq, hnet.dropZeroSign_eq]

end RunTotals

/-! ### All of them -/

/-- **Documents are read back.**  Concepts of all kinds of rule, workers, defaults, policies,
    scopes, applications, lines, totals, periods and types of run are read from what is written of
    them: as they are if there is no negative zero among their decimals, and only then, and
    otherwise without the signs of their zeros.  Writing what was read from any document, and
    reading it again, does just that. -/
theorem documents_readBack :
    Concept.form.ReadsBack ∧ Worker.form.ReadsBack ∧ ContextDefaults.form.ReadsBack ∧
      EngineConfig.form.ReadsBack ∧ Scope.form.ReadsBack ∧ Application.form.ReadsBack ∧
      Line.form.ReadsBack ∧ RunTotals.form.ReadsBack ∧ Period.form.ReadsBack ∧
      PayrollType.form.ReadsBack :=
  ⟨Concept.form_sound.readsBack, Worker.form_sound.readsBack, ContextDefaults.form_sound.readsBack,
    EngineConfig.form_sound.readsBack, (Form.ofExact_sound Scope.ofDocument?_toDocument).readsBack,
    Application.form_sound.readsBack, Line.form_sound.readsBack, RunTotals.form_sound.readsBack,
    (Form.ofExact_sound Period.ofDocument?_text).readsBack,
    (Form.ofExact_sound PayrollType.ofDocument?_label).readsBack⟩

/-- An application whose amount is too small to be written out, and negative. -/
def faint : Document :=
  .record [("concept_id", .text "c1"), ("code", .text "TINY"), ("name", .text "Tiny"),
    ("concept_type", .text "earning"), ("amount", .text "-0.4e-28")]

/-- What is read from it: the amount is a zero with a sign. -/
def faintApplication : Application :=
  ⟨"c1", "TINY", "Tiny", .earning, ⟨true, 0, 28, Nat.zero_le _, Nat.le_refl _⟩⟩

/-- It is not read back: the sign that is written is not read, and it is not written again. -/
theorem faint_not_readBack :
    Application.ofDocument? faint = some faintApplication ∧
      ∃ a, Application.ofDocument? faintApplication.toDocument = some a ∧ a ≠ faintApplication ∧
        a.amount.toString ≠ faintApplication.amount.toString :=
  ⟨by decide +kernel, faintApplication.plain, Application.ofDocument?_toDocument _, by decide,
    by decide +kernel⟩

end Payroll
