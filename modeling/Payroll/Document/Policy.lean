import Payroll.Document
import Payroll.Policy

namespace Payroll

/-!
# Policies in documents

Main definitions: `toDocument` and `ofDocument?` for periods, types of run, scopes, defaults and
policies.  What a policy does not give is as in the built-in one.
-/

open Document

/-- A period as text. -/
def Period.ofDocument? (d : Document) : Option Period :=
  d.toText?.bind fun s => Period.parse? s.toList

/-- A label of a type of run. -/
def PayrollType.ofDocument? : Document → Option PayrollType := toLabel? all label

/-- The type of run with a label. -/
def PayrollType.ofLabel? (s : String) : Option PayrollType := all.find? fun t => t.label == s

namespace Scope

/-- A scope is a word, or a record that names a group. -/
def toDocument : Scope → Document
  | all => .text "all"
  | group name => .record [("group", .text name)]

/-- Reads a scope. -/
def ofDocument? : Document → Option Scope
  | .text "all" => some all
  | .record [("all", .null)] => some all
  | .record [("group", d)] => d.toText?.map group
  | _ => none

end Scope

namespace ContextDefaults

/-- The fields of the defaults, in order. -/
def fieldNames : List String := ["worked_days", "overtime_hours", "absence_days", "extra"]

/-- The defaults as a record. -/
def toDocument (c : ContextDefaults) : Document :=
  .record
    [("worked_days", .ofDecimal c.workedDays),
     ("overtime_hours", .ofDecimal c.overtimeHours),
     ("absence_days", .ofDecimal c.absenceDays),
     ("extra", .ofTable id .ofDecimal c.extra)]

/-- Reads defaults. -/
def ofDocument? (d : Document) : Option ContextDefaults := do
  let builtin : ContextDefaults := {}
  let fields ← d.fields? fieldNames
  return { workedDays := ← optional fields "worked_days" builtin.workedDays toDecimal?
           overtimeHours := ← optional fields "overtime_hours" builtin.overtimeHours toDecimal?
           absenceDays := ← optional fields "absence_days" builtin.absenceDays toDecimal?
           extra := ← optional fields "extra" builtin.extra (toTable? some toDecimal?) }

end ContextDefaults

namespace EngineConfig

/-- The fields of a policy, in order. -/
def fieldNames : List String := ["payroll_types", "defaults", "parallel_threshold"]

/-- A policy as a record. -/
def toDocument (c : EngineConfig) : Document :=
  .record
    [("payroll_types", .ofTable PayrollType.label .ofDecimal c.multipliers),
     ("defaults", c.defaults.toDocument),
     ("parallel_threshold", .integer c.parallelThreshold.toNat)]

/-- Reads a policy. -/
def ofDocument? (d : Document) : Option EngineConfig := do
  let builtin : EngineConfig := {}
  let fields ← d.fields? fieldNames
  return { multipliers := ← optional fields "payroll_types" builtin.multipliers
             (toTable? PayrollType.ofLabel? toDecimal?)
           defaults := ← optional fields "defaults" builtin.defaults ContextDefaults.ofDocument?
           parallelThreshold :=
             ← optional fields "parallel_threshold" builtin.parallelThreshold toUInt64? }

end EngineConfig

end Payroll
