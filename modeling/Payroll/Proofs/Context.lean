import Payroll.Context
import Payroll.Proofs.Table

namespace Payroll

/-!
# What the variables of a worker are

The configured constants are taken over first, the worker's own variables replace those of the same
name, and the total of earnings is removed in the end.  What counts is what looking up a name gives
after all this.

* `Variables.builtinNames`, `Variables.reservedNames` — the names of the variables that every worker
  has, and with the total of earnings those that cannot be configured.
* `Variables.get?_forWorker` — **what a name stands for**.
* `Variables.map_get?_forWorker`, `Variables.get?_forWorker_of_notMem`,
  `Variables.get?_totalEarnings_forWorker` — so a built-in name has its own value, a name that is
  not reserved the configured one, and the total of earnings none.
* `Variables.get?_forWorker_congr` — hence constants of reserved names make no difference.
-/

namespace Variables

/-- The names of the variables that every worker has. -/
def builtinNames : List String :=
  ["BASIC_SALARY", "ORIGINAL_BASIC_SALARY", "WORKED_DAYS", "OVERTIME_HOURS", "ABSENCE_DAYS",
    "DAYS_IN_PERIOD", "TENURE_YEARS", "TENURE_MONTHS", "DEPENDENTS", "CONTRACT_INDEFINITE",
    "CONTRACT_FIXED_TERM", "CONTRACT_PART_TIME"]

/-- The names that cannot be configured. -/
def reservedNames : List String := totalEarnings :: builtinNames

variable {worker : Worker} {salary : Decimal} {period : Period} {defaults : ContextDefaults}
  {x : String}

theorem map_fst_builtins (worker : Worker) (salary : Decimal) (period : Period)
    (defaults : ContextDefaults) :
    (builtins worker salary period defaults).map Prod.fst = builtinNames := rfl

theorem nodup_builtins : ((builtins worker salary period defaults).map Prod.fst).Nodup := by
  rw [map_fst_builtins]
  decide

/-- **What a name stands for** before the earnings are settled. -/
theorem get?_forWorker (x : String) : (forWorker worker salary period defaults).get? x =
    if x = totalEarnings then none
    else (Table.find? x (builtins worker salary period defaults)).or (defaults.extra.get? x) := by
  rw [forWorker, Table.get?_erase, Table.get?_foldl_set nodup_builtins]

/-- Whatever constants are configured, the total of earnings is none of them. -/
theorem get?_totalEarnings_forWorker (worker : Worker) (salary : Decimal) (period : Period)
    (defaults : ContextDefaults) :
    (forWorker worker salary period defaults).get? totalEarnings = none := by
  rw [get?_forWorker, if_pos rfl]

/-- A built-in name stands for what the worker, the period and the default values give it. -/
theorem get?_forWorker_of_mem {e : String × Decimal}
    (h : e ∈ builtins worker salary period defaults) :
    (forWorker worker salary period defaults).get? e.1 = some e.2 := by
  have hname : e.1 ∈ builtinNames := List.mem_map_of_mem h
  have htotal : e.1 ≠ totalEarnings := by
    intro heq
    rw [heq] at hname
    exact absurd hname (by decide)
  rw [get?_forWorker, if_neg htotal, Table.find?_eq_some_of_mem nodup_builtins h, Option.some_or]

/-- So do all of them, in their order. -/
theorem map_get?_forWorker (worker : Worker) (salary : Decimal) (period : Period)
    (defaults : ContextDefaults) :
    builtinNames.map (forWorker worker salary period defaults).get?
      = (builtins worker salary period defaults).map fun e => some e.2 := by
  rw [← map_fst_builtins worker salary period defaults, List.map_map]
  refine List.map_congr_left fun e he => ?_
  rw [Function.comp_apply, get?_forWorker_of_mem he]

/-- A name that is not reserved stands for what is configured, or for nothing. -/
theorem get?_forWorker_of_notMem (h : x ∉ reservedNames) :
    (forWorker worker salary period defaults).get? x = defaults.extra.get? x := by
  rw [reservedNames, List.mem_cons, not_or] at h
  rw [get?_forWorker, if_neg h.1, Table.find?_eq_none_of_notMem h.2, Option.none_or]

/-- **Constants of reserved names** make no difference to any name. -/
theorem get?_forWorker_congr {defaults' : ContextDefaults}
    (hbuiltins : builtins worker salary period defaults = builtins worker salary period defaults')
    (hextra : ∀ x ∉ reservedNames, defaults.extra.get? x = defaults'.extra.get? x) (x : String) :
    (forWorker worker salary period defaults).get? x
      = (forWorker worker salary period defaults').get? x := by
  by_cases hx : x ∈ reservedNames
  · rcases List.mem_cons.1 hx with rfl | hbuiltin
    · rw [get?_totalEarnings_forWorker, get?_totalEarnings_forWorker]
    · obtain ⟨e, he, rfl⟩ :=
        List.mem_map.1 (map_fst_builtins worker salary period defaults ▸ hbuiltin)
      rw [get?_forWorker_of_mem he, get?_forWorker_of_mem (hbuiltins ▸ he)]
  · rw [get?_forWorker_of_notMem hx, get?_forWorker_of_notMem hx, hextra x hx]

end Variables

end Payroll
