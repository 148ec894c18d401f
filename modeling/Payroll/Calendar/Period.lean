import Payroll.Calendar.Date

namespace Payroll

/-!
# Periods

A payroll covers one calendar month.

Main definitions:

* `Period`: a month of one of the years 1 to 9999.
* `Period.ofParts?`: the period of a year and a month.
* `Period.lastDay`, `Period.days`: its last day and its number of days.
* `Period.render`, `Period.parse?`: the form of four digits, a hyphen and two digits.
-/

/-- A calendar month. -/
structure Period where
  year : Nat
  month : Nat
  in_range : (1 ≤ year ∧ year ≤ 9999) ∧ 1 ≤ month ∧ month ≤ 12
  deriving DecidableEq, Repr

namespace Period

/-- The period of a year and a month, if both are in range. -/
def ofParts? (year : Int) (month : Nat) : Option Period :=
  if h : (1 ≤ year ∧ year ≤ 9999) ∧ 1 ≤ month ∧ month ≤ 12 then
    some ⟨year.toNat, month, by omega⟩
  else
    none

/-- Earlier months come first. -/
instance : LT Period := ⟨fun a b => a.year < b.year ∨ a.year = b.year ∧ a.month < b.month⟩

instance (a b : Period) : Decidable (a < b) :=
  inferInstanceAs (Decidable (_ < _ ∨ _ = _ ∧ _ < _))

/-- The number of days. -/
def days (p : Period) : Nat := daysInMonth p.year p.month

/-- The last day. -/
def lastDay (p : Period) : Date where
  year := p.year
  month := p.month
  day := p.days
  year_range := by have := p.in_range; omega
  month_range := p.in_range.2
  day_range := ⟨one_le_daysInMonth _ _, Nat.le_refl _⟩

/-! ### Text -/

/-- The written form. -/
def render (p : Period) : List Char :=
  Numeral.fixedDigits 10 4 p.year ++ '-' :: Numeral.fixedDigits 10 2 p.month

/-- The written form. -/
protected def toString (p : Period) : String := String.ofList p.render

instance : ToString Period := ⟨Period.toString⟩

/-- Reads a period: exactly the written form of one. -/
def parse? : List Char → Option Period
  | [y₁, y₂, y₃, y₄, '-', m₁, m₂] => do
    let year ← Numeral.value? 10 [y₁, y₂, y₃, y₄]
    let month ← Numeral.value? 10 [m₁, m₂]
    ofParts? year month
  | _ => none

end Period

end Payroll
