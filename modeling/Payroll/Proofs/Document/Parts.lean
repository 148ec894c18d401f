import Payroll.Document.Runs
import Payroll.Proofs.Calendar.Text
import Payroll.Proofs.Decimal.Text
import Payroll.Proofs.Table

namespace Payroll

/-!
# The parts of documents are read back

What is written of a value is text, whole numbers, lists and records.  Here each of these is read
back by itself.

* `Document.toDecimal?_ofDecimal` — a decimal is read back, but for the sign of a zero.
* `Document.toUInt32?_integer`, `toUInt64?_integer`, `toInt32?_integer` — whole numbers
  are read back.
* `Document.fields?_record` — of a record with known names, every entry is a field.
* `Document.toTable?_ofTable` — **a table is read back** if its keys and values are.
* `required_bind`, `optional_bind` — a structure is read field by field.
-/

open Document

/-! ### Scalars -/

namespace Document

/-- A decimal is read back, but for the sign of a zero. -/
@[simp] theorem toDecimal?_ofDecimal (d : Decimal) :
    toDecimal? (ofDecimal d) = some d.dropZeroSign :=
  Decimal.readText?_toString d

@[simp] theorem toText?_text (s : String) : toText? (text s) = some s := rfl

@[simp] theorem toUnsigned?_integer (n : Nat) : toUnsigned? (integer n) = some n := by
  simp [toUnsigned?]

@[simp] theorem toUInt32?_integer (n : UInt32) : toUInt32? (integer n.toNat) = some n := by
  simp [toUInt32?, n.toNat_lt_size]

@[simp] theorem toUInt64?_integer (n : UInt64) : toUInt64? (integer n.toNat) = some n := by
  simp [toUInt64?, n.toNat_lt_size]

@[simp] theorem toInt32?_integer (n : Int32) : toInt32? (integer n.toInt) = some n := by
  have hrange : Int32.minValue.toInt ≤ n.toInt ∧ n.toInt ≤ Int32.maxValue.toInt :=
    ⟨n.minValue_le_toInt, n.toInt_le⟩
  rw [toInt32?, toSigned?, Option.bind_some, if_pos hrange, Int32.ofInt_toInt]

end Document

@[simp] theorem Date.ofDocument?_text (d : Date) :
    Date.ofDocument? (.text d.toString) = some d := by
  rw [ofDocument?, toText?_text, Option.bind_some, Date.toString, String.toList_ofList,
    parse?_render]

@[simp] theorem Period.ofDocument?_text (p : Period) :
    Period.ofDocument? (.text p.toString) = some p := by
  rw [ofDocument?, toText?_text, Option.bind_some, Period.toString, String.toList_ofList,
    parse?_render]

/-! ### Labels -/

@[simp] theorem ConceptType.ofDocument?_label (t : ConceptType) :
    ConceptType.ofDocument? (.text t.label) = some t := by
  cases t <;> rfl

@[simp] theorem ContractType.ofDocument?_label (t : ContractType) :
    ContractType.ofDocument? (.text t.label) = some t := by
  cases t <;> rfl

@[simp] theorem Status.ofDocument?_label (t : Status) :
    Status.ofDocument? (.text t.label) = some t := by
  cases t <;> rfl

@[simp] theorem PayrollType.ofDocument?_label (t : PayrollType) :
    PayrollType.ofDocument? (.text t.label) = some t := by
  cases t <;> rfl

@[simp] theorem PayrollType.ofLabel?_label (t : PayrollType) :
    PayrollType.ofLabel? t.label = some t := by
  cases t <;> rfl

@[simp] theorem RuleKind.ofLabelOrPlace?_label (k : RuleKind) :
    RuleKind.ofLabelOrPlace? (.text k.label) = some k := by
  cases k <;> rfl

/-! ### Records and tables -/

namespace Document

/-- Of a record with known names, every entry is a field. -/
theorem fields?_record (names : List String) {entries : List (String × Document)}
    (hnames : entries.map Prod.fst = names) (hd : names.Nodup) :
    fields? names (record entries) = some ⟨entries, hnames ▸ hd⟩ := by
  subst hnames
  have hfilter : entries.filter (fun e => (entries.map Prod.fst).contains e.1) = entries :=
    List.filter_eq_self.2 fun e he => List.contains_iff_mem.2 (List.mem_map.2 ⟨e, he, rfl⟩)
  have hselect : select? (entries.map Prod.fst) entries = some ⟨entries, hd⟩ := by
    unfold select?
    simp only [hfilter, dif_pos hd]
  exact hselect

theorem fields?_singleton (name : String) (d : Document) :
    fields? [name] (record [(name, d)]) = some ⟨[(name, d)], List.pairwise_singleton _ name⟩ := by
  have hnames : [(name, d)].map Prod.fst = [name] := rfl
  exact fields?_record [name] hnames (List.pairwise_singleton _ name)

/-- A step for every element comes out well if each of them does. -/
theorem mapM_map_eq_some {α β γ : Type} {f : β → Option γ} {g : α → β} {h : α → γ} {xs : List α}
    (hstep : ∀ x ∈ xs, f (g x) = some (h x)) : (xs.map g).mapM f = some (xs.map h) := by
  induction xs with
  | nil => rfl
  | cons x xs ih =>
    rw [List.forall_mem_cons] at hstep
    rw [List.map_cons, List.mapM_cons, hstep.1, ih hstep.2]
    rfl

/-- **A table is read back** if its keys and values are. -/
theorem toTable?_ofTable {κ α : Type} [DecidableEq κ] {key : κ → String} {key? : String → Option κ}
    {value : α → Document} {value? : Document → Option α} {f : α → α}
    (hkey : ∀ k, key? (key k) = some k) (hvalue : ∀ v, value? (value v) = some (f v))
    (t : Table κ α) :
    toTable? key? value? (ofTable key value t) = some (t.mapValues f) := by
  have hentries : (t.entries.map fun e => (key e.1, value e.2)).mapM
      (fun e => do return (← key? e.1, ← value? e.2)) = some (t.mapValues f).entries :=
    mapM_map_eq_some fun e _ => by simp [hkey, hvalue]
  have htable : Table.ofList (t.mapValues f).entries = t.mapValues f :=
    Table.ofList_eq (t.mapValues f).nodup
  unfold toTable? ofTable
  simp only [entries?, Option.bind_eq_bind, Option.bind_some] at hentries ⊢
  rw [hentries, Option.bind_some, htable]
  rfl

end Document

/-! ### One field after another -/

section

variable {α β : Type} {fields : Table String Document} {name : String} {d : Document} {a : α}
  {b : β} {decode : Document → Option α}

/-- A step that comes out well is followed by the next one. -/
theorem bind_of_eq_some {x : Option α} {f : α → Option β} (hx : x = some a) (hrest : f a = some b) :
    (x >>= f) = some b := by
  rw [hx]
  exact hrest

/-- A field that must be given is read, and then the rest. -/
theorem required_bind {f : α → Option β} (hget : fields.get? name = some d)
    (hread : decode d = some a) (hrest : f a = some b) :
    (required fields name decode >>= f) = some b :=
  bind_of_eq_some (by rw [required, hget]; exact hread) hrest

/-- A field that may be left out, but is not, is read, and then the rest. -/
theorem optional_bind {default : α} {f : α → Option β} (hget : fields.get? name = some d)
    (hread : decode d = some a) (hrest : f a = some b) :
    (optional fields name default decode >>= f) = some b :=
  bind_of_eq_some (by rw [optional, hget]; exact hread) hrest

end

end Payroll
