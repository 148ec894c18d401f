import Payroll.Numeral
import Payroll.Text

namespace Payroll

/-!
# Dates

Days of the calendar, the rule of leap years reaching back beyond its introduction.

Main definitions:

* `Date`: a year, a month of it and a day of the month; that they exist is part of the type.
* `Date.ofParts?`: the date of three numbers, if there is one.
* `Date.render`, `Date.parse?`: the form year, month, day with hyphens between them.
* `Date.wholeMonthsUntil`: the months completed between two dates.
-/

/-- A year of 366 days. -/
def isLeapYear (year : Int) : Bool := year % 4 == 0 && (year % 100 != 0 || year % 400 == 0)

/-- The number of days in a month of a year. -/
def daysInMonth (year : Int) (month : Nat) : Nat :=
  if month = 2 then if isLeapYear year then 29 else 28
  else if month = 4 ∨ month = 6 ∨ month = 9 ∨ month = 11 then 30
  else 31

theorem one_le_daysInMonth (year : Int) (month : Nat) : 1 ≤ daysInMonth year month := by
  unfold daysInMonth
  repeat' split
  all_goals decide

/-- A day of the calendar, in one of the years -262143 to 262142. -/
structure Date where
  year : Int
  month : Nat
  day : Nat
  year_range : -262143 ≤ year ∧ year ≤ 262142
  month_range : 1 ≤ month ∧ month ≤ 12
  day_range : 1 ≤ day ∧ day ≤ daysInMonth year month
  deriving DecidableEq, Repr

namespace Date

/-- The date of a year, a month and a day, if the calendar has it. -/
def ofParts? (year : Int) (month day : Nat) : Option Date :=
  if h : (-262143 ≤ year ∧ year ≤ 262142) ∧ (1 ≤ month ∧ month ≤ 12) ∧
      (1 ≤ day ∧ day ≤ daysInMonth year month) then
    some ⟨year, month, day, h.1, h.2.1, h.2.2⟩
  else
    none

/-- Earlier in the calendar. -/
instance : LT Date :=
  ⟨fun a b => a.year < b.year ∨ a.year = b.year ∧
    (a.month < b.month ∨ a.month = b.month ∧ a.day < b.day)⟩

instance (a b : Date) : Decidable (a < b) :=
  inferInstanceAs (Decidable ((_ : Int) < _ ∨ _ = _ ∧ (_ < _ ∨ _ = _ ∧ _ < _)))

/-- Months are counted on through the years. -/
def monthIndex (d : Date) : Int := 12 * d.year + d.month

/-- The whole months from one date to another, zero if the second one is earlier.  A month is
    complete on the day of the same number. -/
def wholeMonthsUntil (d e : Date) : Nat :=
  if e < d then 0
  else (e.monthIndex - d.monthIndex - if e.day < d.day then 1 else 0).toNat

/-! ### Text -/

/-- The year takes four digits, or a sign and at least four if it is negative or longer. -/
def renderYear (year : Int) : List Char :=
  if 0 ≤ year ∧ year ≤ 9999 then Numeral.fixedDigits 10 4 year.toNat
  else
    let digits := Numeral.digits year.natAbs
    (if year < 0 then '-' else '+') :: (List.replicate (4 - digits.length) '0' ++ digits)

/-- The written form. -/
def render (d : Date) : List Char :=
  renderYear d.year ++ '-' :: Numeral.fixedDigits 10 2 d.month ++
    '-' :: Numeral.fixedDigits 10 2 d.day

/-- The written form. -/
protected def toString (d : Date) : String := String.ofList d.render

instance : ToString Date := ⟨Date.toString⟩

/-- Splits at most `width` digits off the front, after any white space; at least one is due. -/
def takeNumber? (width : Nat) (cs : List Char) : Option (Nat × List Char) :=
  let cs := cs.dropWhile Text.isBlank
  let digits := (cs.take width).takeWhile Char.isDigit
  if digits.isEmpty then none
  else (Numeral.value? 10 digits).map fun n => (n, cs.drop digits.length)

/-- Splits a year off the front.  Without a sign it has at most four digits. -/
def takeYear? (cs : List Char) : Option (Int × List Char) :=
  match cs.dropWhile Text.isBlank with
  | '-' :: rest => signed (-1) rest
  | '+' :: rest => signed 1 rest
  | rest => (takeNumber? 4 rest).map fun (n, rest) => ((n : Int), rest)
where
  /-- The digits follow their sign directly. -/
  signed (sign : Int) (rest : List Char) : Option (Int × List Char) :=
    if (rest.head?.map Char.isDigit).getD false then
      (takeNumber? rest.length rest).map fun (n, rest) => (sign * n, rest)
    else none

/-- Drops the hyphen at the front, after any white space. -/
def dropHyphen? (cs : List Char) : Option (List Char) :=
  match cs.dropWhile Text.isBlank with
  | '-' :: rest => some rest
  | _ => none

/-- Reads a date.  Months and days may do without a leading zero, and white space may stand
    around every number. -/
def parse? (cs : List Char) : Option Date := do
  let (year, cs) ← takeYear? cs
  let cs ← dropHyphen? cs
  let (month, cs) ← takeNumber? 2 cs
  let cs ← dropHyphen? cs
  let (day, cs) ← takeNumber? 2 cs
  if cs.all Text.isBlank then ofParts? year month day else none

end Date

end Payroll
