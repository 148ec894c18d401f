import Payroll.Proofs.Engine.Consistency
import Payroll.Proofs.Run.Totals

namespace Payroll

/-!
# Totals of committed runs

Lines can be edited before they are committed, and then their figures need not be whole cents.  Each
line has to balance; but every total of the run is a sum that is rounded by itself, and rounding a
difference is not the difference of what has been rounded.

* `RunTotals.RoundsSums`, `RunTotals.roundsSums_of_ofLines?` — a total is the exact sum, rounded, if
  no digit of the sum is lost on the way.
* `RunTotals.Lossless`, `RunTotals.lossless_of_room` — no digit is lost on the way to any of the
  totals that balance; it is so for computed lines with room for their cents.
* `Backend.commitRun_totals_rounded` — **the totals of a committed run** are rounded sums.  They
  balance up to a cent, and exactly if earnings and deductions come to whole cents.
* `Backend.commitRun_totals_unbalanced` — a run whose totals are off by a cent, and one whose totals
  have lost a digit.
-/

open Decimal

/-- If the difference of earnings and deductions fits, net pay of a line that balances is exactly
    that. -/
theorem Line.netPay_value_of_isBalanced {line : Line} (h : line.isBalanced = true)
    (hfits : Fits (line.totalEarnings.value - line.totalDeductions.value)) :
    line.netPay.value = line.totalEarnings.value - line.totalDeductions.value := by
  obtain ⟨net, hnet, hsame⟩ := Line.isBalanced_iff.1 h
  obtain ⟨net', hnet', hvalue, _⟩ := sub_of_fits hfits
  obtain rfl := Option.some.inj (hnet.symm.trans hnet')
  rw [← sameValue_iff_value_eq.1 hsame, hvalue]

namespace RunTotals

open Line

/-- Each total is the exact sum of its figure, rounded to cents, if every sum on the way fits. -/
structure RoundsSums (totals : RunTotals) (lines : List Line) : Prop where
  earnings : SumsFit (lines.map Line.totalEarnings) →
    totals.totalEarnings.value = nearestCents (exactSum Line.totalEarnings lines) / 100
  deductions : SumsFit (lines.map Line.totalDeductions) →
    totals.totalDeductions.value = nearestCents (exactSum Line.totalDeductions lines) / 100
  contributions : SumsFit (lines.map Line.totalContributions) →
    totals.totalContributions.value = nearestCents (exactSum Line.totalContributions lines) / 100
  netPay : SumsFit (lines.map Line.netPay) →
    totals.netPay.value = nearestCents (exactSum Line.netPay lines) / 100

/-- No digit is lost on the way to totals that balance: the difference of each line fits, and so
    does every sum of earnings, of deductions and of net pay. -/
structure Lossless (lines : List Line) : Prop where
  difference : ∀ line ∈ lines, Fits (line.totalEarnings.value - line.totalDeductions.value)
  earnings : SumsFit (lines.map Line.totalEarnings)
  deductions : SumsFit (lines.map Line.totalDeductions)
  netPay : SumsFit (lines.map Line.netPay)

variable {lines : List Line} {totals : RunTotals}

/-- Computed lines lose no digit if there is room for the cents of their sums. -/
theorem lossless_of_room (hsound : ∀ line ∈ lines, line.Sound) (hroom : HasRoom lines) :
    Lossless lines where
  difference := fun line hline => ⟨line.netPay, (netPay_spec_of_room hsound hroom line hline).1⟩
  earnings := (addsUp_of_room hsound hroom).1.fits
  deductions := (addsUp_of_room hsound hroom).2.1.fits
  netPay := (addsUp_of_room hsound hroom).2.2.2.fits

/-- The rounded sum of a figure is the exact one, rounded. -/
theorem value_of_roundedSum? {figure : Line → Decimal} {total : Decimal}
    (h : roundedSum? figure lines = some total) (hfits : SumsFit (lines.map figure)) :
    total.value = nearestCents (exactSum figure lines) / 100 := by
  obtain ⟨total', htotal', hvalue⟩ := roundedSum?_of_sumsFit hfits
  rw [Option.some.inj (h.symm.trans htotal'), hvalue]

/-- **Totals are rounded sums.** -/
theorem roundsSums_of_ofLines? (h : ofLines? lines = some totals) : totals.RoundsSums lines := by
  obtain ⟨_, hearnings, hdeductions, hcontributions, hnetPay⟩ := ofLines?_eq_some_iff.1 h
  exact ⟨value_of_roundedSum? hearnings, value_of_roundedSum? hdeductions,
    value_of_roundedSum? hcontributions, value_of_roundedSum? hnetPay⟩

/-- If all lines balance and no digit is lost, then the exact sums balance, too. -/
theorem exactSum_netPay_of_lossless (hbalanced : ∀ line ∈ lines, line.isBalanced = true)
    (hlossless : Lossless lines) : exactSum Line.netPay lines
      = exactSum Line.totalEarnings lines - exactSum Line.totalDeductions lines :=
  exactSum_netPay fun line hline =>
    netPay_value_of_isBalanced (hbalanced line hline) (hlossless.difference line hline)

/-- Sums that balance are off by a cent at most when they are rounded. -/
theorem RoundsSums.abs_netPay_sub_le (h : totals.RoundsSums lines) (hlossless : Lossless lines)
    (hsums : exactSum Line.netPay lines
      = exactSum Line.totalEarnings lines - exactSum Line.totalDeductions lines) :
    |totals.netPay.value - (totals.totalEarnings.value - totals.totalDeductions.value)|
      ≤ 1 / 100 := by
  rw [h.earnings hlossless.earnings, h.deductions hlossless.deductions, h.netPay hlossless.netPay,
    hsums, ← sub_div, ← sub_div, abs_div, abs_of_pos (show (0 : ℚ) < 100 by norm_num)]
  have hcent := abs_nearestCents_sub_sub_le_one (exactSum Line.totalEarnings lines)
    (exactSum Line.totalDeductions lines)
  exact div_le_div_of_nonneg_right (by exact_mod_cast hcent) (by norm_num)

/-- Whole cents that balance still do so when they are rounded. -/
theorem RoundsSums.netPay_eq_sub (h : totals.RoundsSums lines) (hlossless : Lossless lines)
    (hsums : exactSum Line.netPay lines
      = exactSum Line.totalEarnings lines - exactSum Line.totalDeductions lines)
    {m n : ℤ} (hearnings : exactSum Line.totalEarnings lines = m / 100)
    (hdeductions : exactSum Line.totalDeductions lines = n / 100) :
    totals.netPay.value = totals.totalEarnings.value - totals.totalDeductions.value := by
  rw [h.earnings hlossless.earnings, h.deductions hlossless.deductions, h.netPay hlossless.netPay,
    hsums, hearnings, hdeductions, ← sub_div, ← Int.cast_sub, nearestCents_of_cents,
    nearestCents_of_cents, nearestCents_of_cents, ← sub_div, Int.cast_sub]

end RunTotals

namespace Backend

variable {b : Backend} {s : Submission} {runId id : RunId} {now : Int}

/-- **The totals of a committed run.**  Whatever lines it was committed with, each of its rows
    balances, and each of its totals is the sum of that figure over the lines, rounded to cents, if
    no digit of the sum is lost on the way.  If none is lost in the lines either, then total net pay
    is off by a cent at most; and whenever earnings and deductions come to whole cents, it is
    exactly the difference of the two totals. -/
theorem commitRun_totals_rounded (h : (b.commitRun s runId now).1 = .ok id) :
    ∃ period run, periodOf s.period = .ok period ∧
      (b.commitRun s runId now).2.store.committedRun? ⟨period, s.payrollType⟩ = some run ∧
      run.header.runId = id ∧
      (∀ row ∈ run.details,
        ∃ net, row.totalEarnings.sub row.totalDeductions = some net ∧ net.SameValue row.netPay) ∧
      RunTotals.ofLines? s.lines = some run.header.totals ∧
      run.header.totals.RoundsSums s.lines ∧
      let totals := run.header.totals
      RunTotals.Lossless s.lines →
        Line.exactSum Line.netPay s.lines
            = Line.exactSum Line.totalEarnings s.lines
              - Line.exactSum Line.totalDeductions s.lines ∧
          |totals.netPay.value - (totals.totalEarnings.value - totals.totalDeductions.value)|
            ≤ 1 / 100 ∧
          ((∃ m n : ℤ, Line.exactSum Line.totalEarnings s.lines = m / 100 ∧
              Line.exactSum Line.totalDeductions s.lines = n / 100) →
            totals.netPay.value = totals.totalEarnings.value - totals.totalDeductions.value) := by
  obtain ⟨d, hprepare, hid, _, hstore⟩ := store_commitRun_of_ok h
  obtain ⟨period, totals, hperiod, hlines, htotals, rfl⟩ := Submission.prepare_eq_ok_iff.1 hprepare
  have hrun : (CommittedRun.ofLines (s.header period totals runId now) s.lines).Consistent _ :=
    CommittedRun.consistent_ofLines hlines htotals
  have hrounds : totals.RoundsSums s.lines := RunTotals.roundsSums_of_ofLines? htotals
  refine ⟨period, _, hperiod, ?_, hid.symm, hrun.balanced, htotals, hrounds, fun hlossless => ?_⟩
  · rw [hstore, Store.committedRun?, Table.get?_set]
    exact if_pos rfl
  have hsums := RunTotals.exactSum_netPay_of_lossless hlines.balanced hlossless
  refine ⟨hsums, hrounds.abs_netPay_sub_le hlossless hsums, ?_⟩
  rintro ⟨m, n, hearnings, hdeductions⟩
  exact hrounds.netPay_eq_sub hlossless hsums hearnings hdeductions

/-- A line that somebody has entered by hand. -/
def entered (workerId : String) (earnings deductions netPay : Decimal) : Line :=
  ⟨workerId, "40112233", "Ana Quispe", .hundred, earnings, deductions, .zero, netPay, []⟩

/-- The run that a commit of lines leaves in an empty store. -/
def kept? (lines : List Line) : Option CommittedRun :=
  (periodOf "2025-03").toOption.bind fun period =>
    (({} : Backend).commitRun ⟨"2025-03", .regular, .all, lines⟩ ⟨0⟩ 0).2.store.committedRun?
      ⟨period, .regular⟩

/-- Net pay that is not negative, and net pay that is. -/
def ledger : List Line :=
  [entered "w1" (.ofNat 300) (.ofNat 130) (roundMoney (.ofNat 170)),
    entered "w2" .hundred (.ofNat 150) (roundMoney (Decimal.ofNat 50).neg)]

theorem commitRun_totals_rounded_ledger :
    ∃ run, kept? ledger = some run ∧ RunTotals.Lossless ledger ∧
      run.header.totals.totalEarnings.value
        = nearestCents (Line.exactSum Line.totalEarnings ledger) / 100 ∧
      run.header.totals.netPay.value
        = run.header.totals.totalEarnings.value - run.header.totals.totalDeductions.value := by
  have hsound : ∀ line ∈ ledger, line.Sound := by
    simp only [ledger, List.forall_mem_cons]
    exact ⟨⟨⟨rfl, by decide⟩, ⟨rfl, by decide⟩, ⟨rfl, by decide⟩, .ofNat 170,
        by decide +kernel, rfl⟩,
      ⟨⟨rfl, by decide⟩, ⟨rfl, by decide⟩, ⟨rfl, by decide⟩, (Decimal.ofNat 50).neg,
        by decide +kernel, rfl⟩, by simp⟩
  have hlossless : RunTotals.Lossless ledger :=
    RunTotals.lossless_of_room hsound (by decide +kernel)
  obtain ⟨id, hok, _⟩ : ∃ id,
      (({} : Backend).commitRun ⟨"2025-03", .regular, .all, ledger⟩ ⟨0⟩ 0).1 = .ok id ∧
        (id == ⟨0⟩) = true := exists_ok_of_any (by decide +kernel)
  obtain ⟨period, run, hperiod, hrun, _, _, _, hrounds, hvalues⟩ := commitRun_totals_rounded hok
  have hkept : kept? ledger = some run := by
    rw [kept?, hperiod]
    exact hrun
  exact ⟨run, hkept, hlossless, hrounds.earnings hlossless.earnings,
    (hvalues hlossless).2.2 ⟨40000, 28000, by decide +kernel, by decide +kernel⟩⟩

/-- So many thousandths. -/
def thousandths (n : Nat) : Decimal := (Decimal.ofParts? false n 3).getD .zero

/-- Less than a cent earned, and less than a cent deducted. -/
def slivers : List Line := [entered "w1" (thousandths 14) (thousandths 5) (thousandths 9)]

/-- An amount that leaves no room for cents, and twice less than a unit. -/
def hoard : List Line :=
  [entered "w1" (.ofNat 50000000000000000000000000000) .zero (.ofNat 50000000000000000000000000000),
    entered "w2" (thousandths 400) (thousandths 400) .zero,
    entered "w3" (thousandths 400) (thousandths 400) .zero]

/-- **Committed totals need not balance**: three sums of less than a cent are rounded up to one cent
    each; and a large sum loses a digit that a small one keeps. -/
theorem commitRun_totals_unbalanced :
    (∃ run, kept? slivers = some run ∧ run.header.totals.netPay.value
      ≠ run.header.totals.totalEarnings.value - run.header.totals.totalDeductions.value) ∧
    ∃ run, kept? hoard = some run ∧ run.header.totals.netPay.value
      ≠ run.header.totals.totalEarnings.value - run.header.totals.totalDeductions.value := by
  have hslivers : (kept? slivers).any (fun run => decide (run.header.totals.netPay.value
      ≠ run.header.totals.totalEarnings.value - run.header.totals.totalDeductions.value))
        = true := by
    decide +kernel
  have hhoard : (kept? hoard).any (fun run => decide (run.header.totals.netPay.value
      ≠ run.header.totals.totalEarnings.value - run.header.totals.totalDeductions.value))
        = true := by
    decide +kernel
  rw [Option.any_eq_true] at hslivers hhoard
  simpa only [decide_eq_true_eq] using And.intro hslivers hhoard

end Backend

end Payroll
