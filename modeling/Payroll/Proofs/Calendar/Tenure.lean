import Mathlib.Data.Prod.Lex
import Mathlib.Data.Set.Card
import Mathlib.Order.Interval.Finset.Nat
import Payroll.Proofs.Context
import Payroll.Proofs.Decimal.Exact

namespace Payroll

/-!
# Months and years of service

A month of service is complete on the day of the number that the first day of service has.  One that
is too short for such a day is complete only with the next one.

* `Date.lt_iff_place_lt` — the order of the calendar, said of months and days.
* `Date.le_wholeMonthsUntil_iff`, `Date.le_wholeYearsUntil_iff` — when so many months and
  years are complete.
* `Worker.tenure_counts` — **service is the number of months, and of anniversaries,
  that are complete**.
* `Worker.tenureMonths_advances` — **from one period to the next** it grows by a month if both of
  them have a day of that number.
* `Worker.tenureMonths_stalls` — it does not grow where the next period is too short.
-/

namespace Date

variable {d e : Date} {k : Nat}

/-! ### The order of the calendar -/

/-- The place of a day in the calendar: its month, counted on through the years, and the
    day of it. -/
def place (d : Date) : ℤ ×ₗ ℕ := toLex (d.monthIndex, d.day)

theorem lt_iff_place_lt : d < e ↔ d.place < e.place := by
  have hd := d.month_range
  have he := e.month_range
  rw [place, place, Prod.Lex.toLex_lt_toLex]
  change (d.year < e.year ∨ d.year = e.year ∧
    (d.month < e.month ∨ d.month = e.month ∧ d.day < e.day)) ↔
    d.monthIndex < e.monthIndex ∨ d.monthIndex = e.monthIndex ∧ d.day < e.day
  unfold monthIndex
  omega

theorem not_lt_iff_place_le : ¬ e < d ↔ d.place ≤ e.place := by
  rw [lt_iff_place_lt, not_lt]

/-! ### Completed months and years -/

/-- The months from one date to another, backwards too, less the last one if it is not complete. -/
def monthsUntil (d e : Date) : ℤ :=
  (e.year - d.year) * 12 + (e.month - d.month) - if e.day < d.day then 1 else 0

theorem monthsUntil_eq (d e : Date) :
    d.monthsUntil e = e.monthIndex - d.monthIndex - if e.day < d.day then 1 else 0 := by
  unfold monthsUntil monthIndex
  omega

/-- The months to a day that is not earlier are not negative, and they fit in thirty-one bits. -/
theorem monthsUntil_range (h : ¬ e < d) : 0 ≤ d.monthsUntil e ∧ d.monthsUntil e < 2 ^ 31 := by
  have hd := d.month_range
  have he := e.month_range
  have hdyear := d.year_range
  have heyear := e.year_range
  rw [not_lt_iff_place_le, place, place, Prod.Lex.toLex_le_toLex] at h
  simp only [monthsUntil, monthIndex] at h ⊢
  split <;> omega

/-- Then all of them are counted. -/
theorem wholeMonthsUntil_of_not_lt (h : ¬ e < d) :
    (d.wholeMonthsUntil e : ℤ) = d.monthsUntil e := by
  rw [wholeMonthsUntil, if_neg h, ← monthsUntil_eq, Int.toNat_of_nonneg (monthsUntil_range h).1]

theorem wholeMonthsUntil_lt (d e : Date) : d.wholeMonthsUntil e < 2 ^ 31 := by
  by_cases h : e < d
  · rw [wholeMonthsUntil, if_pos h]
    decide
  · have hrange := monthsUntil_range h
    rw [← wholeMonthsUntil_of_not_lt h] at hrange
    exact_mod_cast hrange.2

/-- **So many months are complete** if the day of the same number so many months later
    has been reached. -/
theorem le_wholeMonthsUntil_iff (hk : 1 ≤ k) :
    k ≤ d.wholeMonthsUntil e ↔ toLex (d.monthIndex + k, d.day) ≤ e.place := by
  rw [place, Prod.Lex.toLex_le_toLex]
  by_cases h : e < d
  · rw [wholeMonthsUntil, if_pos h]
    rw [lt_iff_place_lt, place, place, Prod.Lex.toLex_lt_toLex] at h
    omega
  · have hmonths := wholeMonthsUntil_of_not_lt h
    rw [monthsUntil_eq] at hmonths
    split at hmonths <;> omega

/-- **So many years are complete** if the anniversary has been reached. -/
theorem le_wholeYearsUntil_iff (hk : 1 ≤ k) : k ≤ d.wholeMonthsUntil e / 12 ↔
    toLex (d.year + k, toLex (d.month, d.day)) ≤ toLex (e.year, toLex (e.month, e.day)) := by
  have hd := d.month_range
  have he := e.month_range
  rw [Nat.le_div_iff_mul_le (by decide), le_wholeMonthsUntil_iff (by omega), place,
    Prod.Lex.toLex_le_toLex, Prod.Lex.toLex_le_toLex, Prod.Lex.toLex_le_toLex]
  unfold monthIndex
  omega

theorem wholeMonthsUntil_mono {d d' e e' : Date} (hd : d'.place ≤ d.place)
    (he : e.place ≤ e'.place) :
    d.wholeMonthsUntil e ≤ d'.wholeMonthsUntil e' := by
  rcases Nat.eq_zero_or_pos (d.wholeMonthsUntil e) with hzero | hpos
  · omega
  · rw [le_wholeMonthsUntil_iff hpos]
    refine le_trans ?_ (((le_wholeMonthsUntil_iff hpos).1 le_rfl).trans he)
    rw [place, place, Prod.Lex.toLex_le_toLex] at hd
    rw [Prod.Lex.toLex_le_toLex]
    omega

end Date

/-- The numbers from one to `n`, told apart from the larger ones by any property, are
    `n` in number. -/
theorem encard_of_le_iff {P : ℕ → Prop} {n : ℕ} (h : ∀ k, 1 ≤ k → (k ≤ n ↔ P k)) :
    {k | 1 ≤ k ∧ P k}.encard = n := by
  have hset : {k | 1 ≤ k ∧ P k} = (Finset.Icc 1 n : Set ℕ) := by
    ext k
    rw [Finset.coe_Icc, Set.mem_Icc]
    exact and_congr_right fun hk => (h k hk).symm
  rw [hset, Set.encard_coe_eq_coe_finsetCard, Nat.card_Icc, Nat.add_sub_cancel]

namespace Worker

/-- **Service is counted by what is complete.**  On every day:

    * the months of service are the numbers of months, from one on, after which the day of the same
      number as the first one has been reached, and there are none before the first day;
    * from the first day on they are what the dates differ by, which is not negative and fits
      in thirty-one bits;
    * they do not become fewer with time, nor with an earlier first day;
    * the years of service are the numbers of years, from one on, after which the anniversary
      has been reached. -/
theorem tenure_counts (w : Worker) (d : Date) :
    let h := w.hireDate
    {k : ℕ | 1 ≤ k ∧ toLex (h.monthIndex + k, h.day) ≤ toLex (d.monthIndex, d.day)}.encard
        = w.tenureMonths d ∧
      (d < h → w.tenureMonths d = 0) ∧
      (¬ d < h →
        (0 ≤ h.monthsUntil d ∧ h.monthsUntil d < 2 ^ 31) ∧ w.tenureMonths d = h.monthsUntil d) ∧
      (∀ d' : Date, ¬ d' < d → w.tenureMonths d ≤ w.tenureMonths d') ∧
      (∀ w' : Worker, ¬ h < w'.hireDate → w.tenureMonths d ≤ w'.tenureMonths d) ∧
      {k : ℕ | 1 ≤ k ∧
        toLex (h.year + k, toLex (h.month, h.day)) ≤ toLex (d.year, toLex (d.month, d.day))}.encard
        = w.tenureYears d := by
  intro h
  refine ⟨encard_of_le_iff fun k hk => Date.le_wholeMonthsUntil_iff hk, fun hearly => if_pos hearly,
    fun hhired => ⟨Date.monthsUntil_range hhired, Date.wholeMonthsUntil_of_not_lt hhired⟩,
    fun d' hd => ?_, fun w' hw => ?_, encard_of_le_iff fun k hk => Date.le_wholeYearsUntil_iff hk⟩
  · exact Date.wholeMonthsUntil_mono le_rfl (Date.not_lt_iff_place_le.1 hd)
  · exact Date.wholeMonthsUntil_mono (Date.not_lt_iff_place_le.1 hw) le_rfl

/-- A worker with the given first day of service. -/
def startingOn (hireDate : Date) : Worker :=
  ⟨"w1", "40112233", "Ana", "Quispe", .hundred, hireDate, .indefinite, "office", 0, .active⟩

/-- Whoever starts on the 29th of February completes twelve months, and a year, on the
    1st of March. -/
theorem tenure_counts_leapDay :
    let w := startingOn ⟨2024, 2, 29, by decide, by decide, by decide⟩
    let eve : Date := ⟨2025, 2, 28, by decide, by decide, by decide⟩
    let march : Date := ⟨2025, 3, 1, by decide, by decide, by decide⟩
    {k : ℕ | 1 ≤ k ∧ toLex (24290 + (k : ℤ), 29) ≤ toLex ((24302 : ℤ), 28)}.encard = (11 : ℕ) ∧
      {k : ℕ | 1 ≤ k ∧ toLex (24290 + (k : ℤ), 29) ≤ toLex ((24303 : ℤ), 1)}.encard = (12 : ℕ) ∧
      w.hireDate.monthsUntil march = 12 ∧ w.tenureMonths eve ≤ w.tenureMonths march ∧
      {k : ℕ | 1 ≤ k ∧
        toLex (2024 + (k : ℤ), toLex (2, 29)) ≤ toLex ((2025 : ℤ), toLex (2, 28))}.encard
        = (0 : ℕ) ∧
      {k : ℕ | 1 ≤ k ∧
        toLex (2024 + (k : ℤ), toLex (2, 29)) ≤ toLex ((2025 : ℤ), toLex (3, 1))}.encard
        = (1 : ℕ) := by
  intro w eve march
  obtain ⟨hmonths, -, -, hlater, -, hyears⟩ := tenure_counts w eve
  obtain ⟨hmonths', -, hhired, -, -, hyears'⟩ := tenure_counts w march
  rw [show w.tenureMonths eve = 11 by decide] at hmonths
  rw [show w.tenureYears eve = 0 by decide] at hyears
  rw [show w.tenureMonths march = 12 by decide] at hmonths'
  rw [show w.tenureYears march = 1 by decide] at hyears'
  exact ⟨hmonths, hmonths', (hhired (by decide)).2.symm.trans (by decide), hlater march (by decide),
    hyears, hyears'⟩

end Worker

/-! ### From one period to the next -/

theorem daysInMonth_range (year : ℤ) (month : Nat) :
    28 ≤ daysInMonth year month ∧ daysInMonth year month ≤ 31 := by
  unfold daysInMonth
  repeat' split
  all_goals decide

/-- A short month is followed by a long one. -/
theorem Period.days_next {p q : Period} (hnext : 12 * q.year + q.month = 12 * p.year + p.month + 1)
    (hshort : p.days < 31) : q.days = 31 := by
  have hp := p.in_range
  have hq := q.in_range
  unfold Period.days daysInMonth at hshort ⊢
  split_ifs at hshort ⊢ <;> omega

/-- It ends later. -/
theorem Period.place_lastDay_lt {p q : Period}
    (hnext : 12 * q.year + q.month = 12 * p.year + p.month + 1) :
    p.lastDay.place < q.lastDay.place := by
  rw [Date.place, Date.place, Prod.Lex.toLex_lt_toLex]
  refine .inl ?_
  change (12 * p.year + p.month : ℤ) < 12 * q.year + q.month
  omega

namespace Worker

/-- The months of service are known to formulas, to the month. -/
theorem get?_tenureMonths (w : Worker) (salary : Decimal) (p : Period)
    (defaults : ContextDefaults) :
    ∃ d, (Variables.forWorker w salary p defaults).get? "TENURE_MONTHS" = some d ∧
      d.value = w.tenureMonths p.lastDay := by
  have hbuiltin : ("TENURE_MONTHS", Decimal.ofNat (w.tenureMonths p.lastDay))
      ∈ Variables.builtins w salary p defaults := by simp [Variables.builtins]
  have hbound : w.tenureMonths p.lastDay ≤ Decimal.maxCoefficient :=
    (w.hireDate.wholeMonthsUntil_lt p.lastDay).le.trans (by decide)
  exact ⟨_, Variables.get?_forWorker_of_mem hbuiltin, Decimal.value_ofNat hbound⟩

/-- **Service advances with the periods.**  Let the worker be hired by the end of `p`, and let `q`
    be the next period.

    * If both of them have a day of the number of the first day of service, the months of service
      grow by one from the end of `p` to that of `q`.  They do not grow if `q` is too short for it,
      and by two if `p` is.
    * So they grow by one for whoever was hired on the 28th day of a month or before.
    * They are what formulas find as months of service in `q`. -/
theorem tenureMonths_advances {w : Worker} {p q : Period}
    (hnext : 12 * q.year + q.month = 12 * p.year + p.month + 1)
    (hhired : ¬ p.lastDay < w.hireDate) :
    w.tenureMonths q.lastDay = w.tenureMonths p.lastDay +
        (if q.days < w.hireDate.day then 0 else if p.days < w.hireDate.day then 2 else 1) ∧
      (w.hireDate.day ≤ 28 → w.tenureMonths q.lastDay = w.tenureMonths p.lastDay + 1) ∧
      ∀ salary defaults, ∃ d, (Variables.forWorker w salary q defaults).get? "TENURE_MONTHS"
          = some d ∧
        d.value = w.tenureMonths q.lastDay := by
  have hq : ¬ q.lastDay < w.hireDate := by
    rw [Date.not_lt_iff_place_le] at hhired ⊢
    exact hhired.trans (Period.place_lastDay_lt hnext).le
  have hmonths : ∀ r : Period, ¬ r.lastDay < w.hireDate → (w.tenureMonths r.lastDay : ℤ)
      = 12 * r.year + r.month - w.hireDate.monthIndex - if r.days < w.hireDate.day then 1 else 0 :=
    fun r hr => (Date.wholeMonthsUntil_of_not_lt hr).trans (Date.monthsUntil_eq ..)
  have hbefore := hmonths p hhired
  have hafter := hmonths q hq
  -- No two short months follow one another, so that one of the two has a day of that number.
  have hday : w.hireDate.day ≤ 31 := w.hireDate.day_range.2.trans (daysInMonth_range ..).2
  have hlong : p.days < 31 → q.days = 31 := Period.days_next hnext
  have hadvance : w.tenureMonths q.lastDay = w.tenureMonths p.lastDay +
      (if q.days < w.hireDate.day then 0 else if p.days < w.hireDate.day then 2 else 1) := by
    split_ifs at hbefore hafter ⊢ <;> omega
  refine ⟨hadvance, fun hearly => ?_, fun salary defaults => w.get?_tenureMonths salary q defaults⟩
  have hdays : ∀ r : Period, ¬ r.days < w.hireDate.day :=
    fun r => not_lt.2 (hearly.trans (daysInMonth_range ..).1)
  rwa [if_neg (hdays q), if_neg (hdays p)] at hadvance

/-- From the 31st of March on there are no months of service at the end of April, and two at the end
    of May.  July and August both have a 31st. -/
theorem tenureMonths_advances_unevenly :
    let w := startingOn ⟨2025, 3, 31, by decide, by decide, by decide⟩
    let april : Period := ⟨2025, 4, by decide⟩
    let may : Period := ⟨2025, 5, by decide⟩
    let july : Period := ⟨2025, 7, by decide⟩
    let august : Period := ⟨2025, 8, by decide⟩
    w.tenureMonths may.lastDay = w.tenureMonths april.lastDay + 2 ∧
      w.tenureMonths august.lastDay = w.tenureMonths july.lastDay + 1 ∧
      ∃ d, (Variables.forWorker w .hundred may {}).get? "TENURE_MONTHS" = some d ∧
        d.value = (2 : Nat) := by
  intro w april may july august
  obtain ⟨hmay, -, hcontext⟩ :=
    tenureMonths_advances (w := w) (p := april) (q := may) (by decide) (by decide)
  obtain ⟨haugust, -, -⟩ :=
    tenureMonths_advances (w := w) (p := july) (q := august) (by decide) (by decide)
  rw [show w.tenureMonths may.lastDay = 2 by decide] at hcontext
  exact ⟨hmay, haugust, hcontext .hundred {}⟩

/-- **A period that is too short** for the day of hiring adds no month of service: whoever starts on
    the 31st of March has none at the end of April, as at the end of March. -/
theorem tenureMonths_stalls :
    let w := startingOn ⟨2025, 3, 31, by decide, by decide, by decide⟩
    let march : Period := ⟨2025, 3, by decide⟩
    let april : Period := ⟨2025, 4, by decide⟩
    ¬ march.lastDay < w.hireDate ∧
      12 * april.year + april.month = 12 * march.year + march.month + 1 ∧
      w.tenureMonths april.lastDay ≠ w.tenureMonths march.lastDay + 1 ∧
      (Variables.forWorker w .hundred april {}).get? "TENURE_MONTHS" = some .zero := by
  intro w march april
  exact ⟨by decide, by decide, by decide, by decide⟩

end Worker

end Payroll
