import Mathlib.Data.List.Perm.Basic
import Payroll.Proofs.Decimal.Cents
import Payroll.Proofs.Run.Preview

namespace Payroll

/-!
# Totals of a run

The totals of a run are four sums of decimals, each of them rounded.  Net pay of a line can be
negative, so that the sums of it on the way are not bounded by the last one; but each of them is the
difference of what the lines so far earn and deduct, and that bounds it.

* `Line.Sound` — what holds of every computed line.
* `Line.exactSum`, `RunTotals.HasRoom` — the sum of a figure as a number, and room for its cents.
* `Line.AddsUp`, `RunTotals.addsUp_netPay` — a figure that adds up exactly; **net pay does** if
  there is room for earnings and deductions.
* `RunTotals.ofLines?_exact`, `RunTotals.ofLines?_perm` — if there is room the totals exist, are
  exact, and do not depend on the order of the lines.
* `PayrollRun.preview_totals` — **the totals of a preview**.
-/

open Decimal

namespace Line

/-- The totals of a line are amounts, and net pay is their difference, rounded. -/
structure Sound (line : Line) : Prop where
  earnings : line.totalEarnings.IsAmount
  deductions : line.totalDeductions.IsAmount
  contributions : line.totalContributions.IsAmount
  netPay : ∃ net, line.totalEarnings.sub line.totalDeductions = some net ∧
    line.netPay = roundMoney net

theorem sound_settle (config : EngineConfig) (period : Period) (plan : ConceptPlan)
    (worker : Worker) (salary : Decimal) : (settle config period plan worker salary).Sound := by
  obtain ⟨he, hd, hc⟩ := totals_isAmount_settle config period plan worker salary
  obtain ⟨net, hnet, hpay, _⟩ := netPay_settle config period plan worker salary
  exact ⟨he, hd, hc, net, hnet, hpay⟩

/-- Every line that is computed is sound. -/
theorem sound_of_compute {config : EngineConfig} {key : RunKey} {plan : ConceptPlan}
    {worker : Worker} {line : Line} (h : compute config key plan worker = .ok line) :
    line.Sound := by
  obtain ⟨salary, _, rfl⟩ := compute_eq_ok_iff.1 h
  exact sound_settle config key.period plan worker salary

/-- The sum of a figure over lines, as a number. -/
def exactSum (figure : Line → Decimal) (lines : List Line) : ℚ :=
  (lines.map fun line => (figure line).value).sum

theorem sum_map_value (figure : Line → Decimal) (lines : List Line) :
    ((lines.map figure).map Decimal.value).sum = exactSum figure lines := by
  rw [List.map_map]
  rfl

/-- Sums do not depend on the order of the lines. -/
theorem exactSum_perm {lines lines' : List Line} (h : lines'.Perm lines) (figure : Line → Decimal) :
    exactSum figure lines' = exactSum figure lines :=
  (h.map _).sum_eq

/-- A sum without signs is no less than any part of it. -/
theorem exactSum_part_le {figure : Line → Decimal} {lines part : List Line}
    (h : ∀ line ∈ lines, (figure line).negative = false) (hpart : part.Sublist lines) :
    0 ≤ exactSum figure part ∧ exactSum figure part ≤ exactSum figure lines := by
  rw [← sum_map_value, ← sum_map_value]
  exact sum_part_le (List.forall_mem_map.2 h) (hpart.map figure)

/-- A sum without signs is no less than any of its figures. -/
theorem value_le_exactSum {figure : Line → Decimal} {lines : List Line}
    (h : ∀ line ∈ lines, (figure line).negative = false) :
    ∀ line ∈ lines, (figure line).value ≤ exactSum figure lines := by
  intro line hline
  refine List.single_le_sum ?_ _ (List.mem_map_of_mem hline)
  rw [List.forall_mem_map]
  exact fun line hline => value_nonneg (h line hline)

/-- The rounded sum is the exact one, rounded, if every sum on the way fits. -/
theorem roundedSum?_of_sumsFit {figure : Line → Decimal} {lines : List Line}
    (h : SumsFit (lines.map figure)) :
    ∃ total, roundedSum? figure lines = some total ∧
      total.value = nearestCents (exactSum figure lines) / 100 := by
  obtain ⟨s, hs, hvalue, _⟩ := sum?_of_sumsFit h
  rw [sum_map_value] at hvalue
  exact ⟨roundMoney s, by rw [roundedSum?, hs, Option.map_some], by rw [value_roundMoney, hvalue]⟩

/-- If there is room for the cents of earnings and deductions, then net pay is exactly their
    difference, in cents and without a sign on a zero. -/
theorem Sound.netPay_spec {line : Line} (h : line.Sound)
    (he : line.totalEarnings.value ≤ maxCoefficient / 100)
    (hd : line.totalDeductions.value ≤ maxCoefficient / 100) :
    line.netPay.value = line.totalEarnings.value - line.totalDeductions.value ∧
      line.netPay.WholeCents ∧ line.netPay.HasPlainZero := by
  obtain ⟨m, hm⟩ := h.earnings.wholeCents
  obtain ⟨n, hn⟩ := h.deductions.wholeCents
  have hcents : line.totalEarnings.value - line.totalDeductions.value = (m - n : ℤ) / 100 := by
    rw [hm, hn, Int.cast_sub, sub_div]
  have hsmall : |line.totalEarnings.value - line.totalDeductions.value| ≤ maxCoefficient / 100 :=
    abs_sub_le_of_nonneg_of_le (value_nonneg h.earnings.nonneg) he
      (value_nonneg h.deductions.nonneg) hd
  -- A number of cents that is small enough fits, so the difference is exact.
  obtain ⟨net, hnet, hvalue, hplain⟩ :=
    sub_of_fits (by rw [hcents] at hsmall ⊢; exact fits_of_cents hsmall)
  obtain ⟨net', hnet', hpay⟩ := h.netPay
  obtain rfl := Option.some.inj (hnet.symm.trans hnet')
  have hround : line.netPay.value = net.value := by
    rw [hpay]
    exact WholeCents.value_roundMoney_eq ⟨m - n, hvalue.trans hcents⟩
  refine ⟨hround.trans hvalue, ⟨m - n, (hround.trans hvalue).trans hcents⟩, ?_⟩
  rw [hpay]
  exact (hplain (hasPlainZero_of_nonneg h.earnings.nonneg)
    (hasPlainZero_of_nonneg h.deductions.nonneg)).roundMoney

/-! ### Figures that add up -/

/-- A figure of lines that adds up exactly: it is in cents, every sum on the way fits, and zeros
    have no sign. -/
structure AddsUp (figure : Line → Decimal) (lines : List Line) : Prop where
  fits : SumsFit (lines.map figure)
  cents : ∀ line ∈ lines, (figure line).WholeCents
  plain : ∀ line ∈ lines, (figure line).HasPlainZero

/-- The rounded sum is the exact one. -/
theorem AddsUp.roundedSum?_eq {figure : Line → Decimal} {lines : List Line}
    (h : AddsUp figure lines) :
    ∃ total, roundedSum? figure lines = some total ∧ total.value = exactSum figure lines := by
  obtain ⟨total, htotal, hvalue⟩ := roundedSum?_of_sumsFit h.fits
  obtain ⟨n, hn⟩ := exists_cents_of_sum (List.forall_mem_map.2 h.cents)
  rw [sum_map_value] at hn
  exact ⟨total, htotal, by rw [hvalue, hn, nearestCents_of_cents]⟩

/-- The rounded sum does not depend on the order of the lines. -/
theorem AddsUp.roundedSum?_perm {figure : Line → Decimal} {lines lines' : List Line}
    (h : AddsUp figure lines) (h' : AddsUp figure lines') (hperm : lines'.Perm lines) :
    roundedSum? figure lines' = roundedSum? figure lines := by
  obtain ⟨s, hs, hvalue, hplain⟩ := sum?_of_sumsFit h.fits
  obtain ⟨s', hs', hvalue', hplain'⟩ := sum?_of_sumsFit h'.fits
  have hsame : s'.value = s.value := by
    rw [hvalue, hvalue', sum_map_value, sum_map_value, exactSum_perm hperm]
  rw [roundedSum?, roundedSum?, hs, hs', Option.map_some, Option.map_some,
    roundMoney_congr (hplain' (List.forall_mem_map.2 h'.plain))
      (hplain (List.forall_mem_map.2 h.plain)) hsame]

/-- Amounts add up if there is room for the cents of their sum. -/
theorem addsUp_of_amounts {figure : Line → Decimal} {lines : List Line}
    (h : ∀ line ∈ lines, (figure line).IsAmount)
    (hroom : exactSum figure lines ≤ maxCoefficient / 100) : AddsUp figure lines where
  fits := sumsFit_of_amounts (List.forall_mem_map.2 h) (by rwa [sum_map_value])
  cents := fun line hline => (h line hline).wholeCents
  plain := fun line hline => hasPlainZero_of_nonneg (h line hline).nonneg

end Line

namespace RunTotals

open Line

/-- There is room for the cents of all that the lines earn, deduct and contribute. -/
structure HasRoom (lines : List Line) : Prop where
  earnings : exactSum Line.totalEarnings lines ≤ maxCoefficient / 100
  deductions : exactSum Line.totalDeductions lines ≤ maxCoefficient / 100
  contributions : exactSum Line.totalContributions lines ≤ maxCoefficient / 100

instance (lines : List Line) : Decidable (HasRoom lines) :=
  decidable_of_iff (exactSum Line.totalEarnings lines ≤ maxCoefficient / 100 ∧
      exactSum Line.totalDeductions lines ≤ maxCoefficient / 100 ∧
      exactSum Line.totalContributions lines ≤ maxCoefficient / 100)
    ⟨fun h => ⟨h.1, h.2.1, h.2.2⟩, fun h => ⟨h.earnings, h.deductions, h.contributions⟩⟩

/-- Totals that are the exact sums over lines, and balance. -/
structure Exact (totals : RunTotals) (lines : List Line) : Prop where
  earnings : totals.totalEarnings.value = exactSum Line.totalEarnings lines
  deductions : totals.totalDeductions.value = exactSum Line.totalDeductions lines
  contributions : totals.totalContributions.value = exactSum Line.totalContributions lines
  netPay : totals.netPay.value = exactSum Line.netPay lines
  balanced : totals.netPay.value = totals.totalEarnings.value - totals.totalDeductions.value

/-- Where there is room for all lines, there is room for some of them. -/
theorem HasRoom.sublist {lines part : List Line} (hsound : ∀ line ∈ lines, line.Sound)
    (h : HasRoom lines) (hpart : part.Sublist lines) : HasRoom part where
  earnings :=
    (exactSum_part_le (fun line hline => (hsound line hline).earnings.nonneg) hpart).2.trans
    h.earnings
  deductions :=
    (exactSum_part_le (fun line hline => (hsound line hline).deductions.nonneg) hpart).2.trans
    h.deductions
  contributions := (exactSum_part_le (fun line hline => (hsound line hline).contributions.nonneg)
    hpart).2.trans h.contributions

theorem HasRoom.perm {lines lines' : List Line} (h : HasRoom lines) (hperm : lines'.Perm lines) :
    HasRoom lines' where
  earnings := (exactSum_perm hperm _).trans_le h.earnings
  deductions := (exactSum_perm hperm _).trans_le h.deductions
  contributions := (exactSum_perm hperm _).trans_le h.contributions

variable {lines lines' : List Line}

/-- Net pay of each line is exact. -/
theorem netPay_spec_of_room (hsound : ∀ line ∈ lines, line.Sound) (hroom : HasRoom lines) :
    ∀ line ∈ lines, line.netPay.value = line.totalEarnings.value - line.totalDeductions.value ∧
      line.netPay.WholeCents ∧ line.netPay.HasPlainZero := by
  intro line hline
  have hearnings :=
    value_le_exactSum (fun line hline => (hsound line hline).earnings.nonneg) line hline
  have hdeductions :=
    value_le_exactSum (fun line hline => (hsound line hline).deductions.nonneg) line hline
  exact (hsound line hline).netPay_spec (hearnings.trans hroom.earnings)
    (hdeductions.trans hroom.deductions)

/-- The sum of net pay is the difference of the other two sums, over any part of the lines. -/
theorem exactSum_netPay (h : ∀ line ∈ lines,
    line.netPay.value = line.totalEarnings.value - line.totalDeductions.value) :
    exactSum Line.netPay lines
      = exactSum Line.totalEarnings lines - exactSum Line.totalDeductions lines := by
  rw [eq_sub_iff_add_eq, exactSum, exactSum, exactSum, ← List.sum_map_add]
  refine congrArg List.sum (List.map_congr_left fun line hline => ?_)
  rw [h line hline, sub_add_cancel]

/-- **Net pay adds up**: on the way it is the difference of two sums for which there is room. -/
theorem addsUp_netPay (hsound : ∀ line ∈ lines, line.Sound) (hroom : HasRoom lines) :
    AddsUp Line.netPay lines where
  fits := by
    have hspec := netPay_spec_of_room hsound hroom
    refine sumsFit_of_cents (List.forall_mem_map.2 fun line hline => (hspec line hline).2.1)
      fun part hpart => ?_
    obtain ⟨rest, hrest⟩ := hpart
    obtain ⟨before, after, rfl, rfl, _⟩ := List.append_eq_map_iff.1 hrest
    have hbegin : before.Sublist (before ++ after) := List.sublist_append_left before after
    obtain ⟨he, he'⟩ :=
      exactSum_part_le (fun line hline => (hsound line hline).earnings.nonneg) hbegin
    obtain ⟨hd, hd'⟩ :=
      exactSum_part_le (fun line hline => (hsound line hline).deductions.nonneg) hbegin
    rw [sum_map_value, exactSum_netPay fun line hline => (hspec line (hbegin.subset hline)).1]
    exact abs_sub_le_of_nonneg_of_le he (he'.trans hroom.earnings) hd (hd'.trans hroom.deductions)
  cents := fun line hline => (netPay_spec_of_room hsound hroom line hline).2.1
  plain := fun line hline => (netPay_spec_of_room hsound hroom line hline).2.2

/-- Each of the four figures adds up. -/
theorem addsUp_of_room (hsound : ∀ line ∈ lines, line.Sound) (hroom : HasRoom lines) :
    AddsUp Line.totalEarnings lines ∧ AddsUp Line.totalDeductions lines ∧
      AddsUp Line.totalContributions lines ∧ AddsUp Line.netPay lines :=
  ⟨addsUp_of_amounts (fun line hline => (hsound line hline).earnings) hroom.earnings,
    addsUp_of_amounts (fun line hline => (hsound line hline).deductions) hroom.deductions,
    addsUp_of_amounts (fun line hline => (hsound line hline).contributions) hroom.contributions,
    addsUp_netPay hsound hroom⟩

/-- **If there is room the totals exist**, and they are the exact sums. -/
theorem ofLines?_exact (hsound : ∀ line ∈ lines, line.Sound) (hroom : HasRoom lines) :
    ∃ totals, ofLines? lines = some totals ∧ totals.Exact lines := by
  obtain ⟨hearnings, hdeductions, hcontributions, hnetPay⟩ := addsUp_of_room hsound hroom
  obtain ⟨e, he, hevalue⟩ := hearnings.roundedSum?_eq
  obtain ⟨d, hd, hdvalue⟩ := hdeductions.roundedSum?_eq
  obtain ⟨c, hc, hcvalue⟩ := hcontributions.roundedSum?_eq
  obtain ⟨n, hn, hnvalue⟩ := hnetPay.roundedSum?_eq
  have hbalanced : n.value = e.value - d.value := by
    rw [hnvalue, hevalue, hdvalue,
      exactSum_netPay fun line hline => (netPay_spec_of_room hsound hroom line hline).1]
  exact ⟨⟨lines.length, e, d, c, n⟩, ofLines?_eq_some_iff.2 ⟨rfl, he, hd, hc, hn⟩,
    ⟨hevalue, hdvalue, hcvalue, hnvalue, hbalanced⟩⟩

/-- **If there is room the order of the lines** does not matter for the totals. -/
theorem ofLines?_perm (hsound : ∀ line ∈ lines, line.Sound) (hroom : HasRoom lines)
    (hperm : lines'.Perm lines) : ofLines? lines' = ofLines? lines := by
  have hsound' : ∀ line ∈ lines', line.Sound :=
    fun line hline => hsound line (hperm.mem_iff.1 hline)
  obtain ⟨he, hd, hc, hn⟩ := addsUp_of_room hsound hroom
  obtain ⟨he', hd', hc', hn'⟩ := addsUp_of_room hsound' (hroom.perm hperm)
  refine Option.ext fun totals => ?_
  rw [ofLines?_eq_some_iff, ofLines?_eq_some_iff, hperm.length_eq, he.roundedSum?_perm he' hperm,
    hd.roundedSum?_perm hd' hperm, hc.roundedSum?_perm hc' hperm, hn.roundedSum?_perm hn' hperm]

end RunTotals

namespace PayrollRun

/-- Lines that are computed for workers are sound. -/
theorem sound_of_forall₂ {config : EngineConfig} {key : RunKey} {plan : ConceptPlan}
    {workers : List Worker} {lines : List Line}
    (h : List.Forall₂ (fun w line => Line.compute config key plan w = .ok line) workers lines) :
    ∀ line ∈ lines, line.Sound := by
  intro line hline
  obtain ⟨worker, _, hcompute⟩ := exists_mem_of_forall₂ h line hline
  exact Line.sound_of_compute hcompute

/-- **The totals of a preview** count the lines.  If there is room for the cents of all that the
    lines earn, deduct and contribute, the four others are the exact sums over the lines, they
    balance, and they are the same for the workers in any other order.  Under the same condition
    computed lines always have totals. -/
theorem preview_totals (config : EngineConfig) (key : RunKey) (scope : Scope) (plan : ConceptPlan) :
    (∀ workers now run, preview config key scope workers plan now = .ok run →
      run.totals.workerCount = run.lines.length ∧
        (RunTotals.HasRoom run.lines → run.totals.Exact run.lines ∧
          ∀ workers' now', workers'.Perm workers →
            ∃ run', preview config key scope workers' plan now' = .ok run' ∧
              run'.totals = run.totals)) ∧
      ∀ lines, (∀ line ∈ lines, ∃ worker, Line.compute config key plan worker = .ok line) →
        RunTotals.HasRoom lines → (RunTotals.ofLines? lines).isSome = true := by
  constructor
  · intro workers now run h
    obtain ⟨hstaff, hplan, lines, totals, hlines, htotals, rfl⟩ := preview_eq_ok_iff.1 h
    have hsound := sound_of_forall₂ hlines
    refine ⟨(RunTotals.ofLines?_eq_some_iff.1 htotals).1,
      fun hroom => ⟨?_, fun workers' now' hperm => ?_⟩⟩
    · obtain ⟨totals', htotals', hexact⟩ := RunTotals.ofLines?_exact hsound hroom
      obtain rfl := Option.some.inj (htotals.symm.trans htotals')
      exact hexact
    · -- The same lines in another order have the same totals, for nothing is lost in any order.
      have hstaffperm : (eligible scope workers').Perm (eligible scope workers) := hperm.filter _
      obtain ⟨lines', hlines', hlinesperm⟩ := List.perm_comp_forall₂ hstaffperm hlines
      have hstaff' : eligible scope workers' ≠ [] := fun hnil =>
        hstaff (List.Perm.eq_nil (hnil ▸ hstaffperm.symm))
      have htotals' := (RunTotals.ofLines?_perm hsound hroom hlinesperm).trans htotals
      exact ⟨_, preview_eq_ok_iff.2 ⟨hstaff', hplan, lines', totals, hlines', htotals', rfl⟩, rfl⟩
  · intro lines hlines hroom
    have hsound : ∀ line ∈ lines, line.Sound := fun line hline => by
      obtain ⟨worker, hcompute⟩ := hlines line hline
      exact Line.sound_of_compute hcompute
    obtain ⟨totals, htotals, _⟩ := RunTotals.ofLines?_exact hsound hroom
    exact Option.isSome_iff_exists.2 ⟨totals, htotals⟩

/-- The salary is paid, and a loan is paid back. -/
def loans : ConceptPlan where
  earnings := [⟨"c1", "BASE", "Base", .earning, .percentage (some .hundred), 1, .active⟩]
  deductions := [⟨"c2", "LOAN", "Loan", .deduction, .fixed (some (.ofNat 150)), 1, .active⟩]
  contributions := []

/-- One worker earns less than the loan, and one earns more. -/
def borrowers : List Worker :=
  [Line.clerk, { Line.clerk with id := "w2", basicSalary := .ofNat 300 }]

theorem preview_totals_loans :
    ∃ run run', preview {} ⟨⟨2025, 3, by decide⟩, .regular⟩ .all borrowers loans 0 = .ok run ∧
      preview {} ⟨⟨2025, 3, by decide⟩, .regular⟩ .all borrowers.reverse loans 1 = .ok run' ∧
      run.lines.map Line.netPay
        = [⟨true, 5000, 2, by decide, by decide⟩, ⟨false, 15000, 2, by decide, by decide⟩] ∧
      run.totals.netPay.value = 100 ∧ run'.totals = run.totals := by
  have hcomputed : (preview {} ⟨⟨2025, 3, by decide⟩, .regular⟩ .all borrowers loans 0).toOption.any
      (fun run => run.lines.map Line.netPay
          == [⟨true, 5000, 2, by decide, by decide⟩, ⟨false, 15000, 2, by decide, by decide⟩]
        && decide (RunTotals.HasRoom run.lines)) = true := by decide +kernel
  obtain ⟨run, hrun, htest⟩ := exists_ok_of_any hcomputed
  obtain ⟨hnets, hroom⟩ := Bool.and_eq_true_iff.1 htest
  obtain ⟨hpreview, _⟩ := preview_totals {} ⟨⟨2025, 3, by decide⟩, .regular⟩ .all loans
  obtain ⟨_, htotals⟩ := hpreview borrowers 0 run hrun
  obtain ⟨hexact, hperm⟩ := htotals (of_decide_eq_true hroom)
  obtain ⟨run', hrun', hsame⟩ := hperm borrowers.reverse 1 (List.reverse_perm _)
  refine ⟨run, run', hrun, hrun', eq_of_beq hnets, ?_, hsame⟩
  rw [hexact.netPay, ← Line.sum_map_value, eq_of_beq hnets]
  decide +kernel

end PayrollRun

end Payroll
