import Payroll.Proofs.Line.Balance
import Payroll.Run

namespace Payroll

/-!
# What a preview holds

* `RunTotals.ofLines?_eq_some_iff` — totals are the number of lines and four rounded sums.
* `PayrollRun.preview_eq_ok_iff` — there is a preview exactly when somebody is eligible, some
  concept is in use, every line can be computed and the totals are within bounds; it has one line
  for each eligible worker, in the order of the roster.
* `PayrollRun.isBalanced_of_preview`, `PayrollRun.isZero_of_preview` — **its lines balance**, and
  they record no amount of zero.
-/

/-- The sum of a figure over lines, rounded. -/
def Line.roundedSum? (figure : Line → Decimal) (lines : List Line) : Option Decimal :=
  (Decimal.sum? (lines.map figure)).map roundMoney

/-- **Totals** are the number of lines and the rounded sums of their figures. -/
theorem RunTotals.ofLines?_eq_some_iff {lines : List Line} {totals : RunTotals} :
    ofLines? lines = some totals ↔
      totals.workerCount = lines.length ∧
      Line.roundedSum? Line.totalEarnings lines = some totals.totalEarnings ∧
      Line.roundedSum? Line.totalDeductions lines = some totals.totalDeductions ∧
      Line.roundedSum? Line.totalContributions lines = some totals.totalContributions ∧
      Line.roundedSum? Line.netPay lines = some totals.netPay := by
  simp only [ofLines?, Option.bind_eq_bind, Option.bind_eq_some_iff, Option.pure_def,
    Option.some.injEq, Line.roundedSum?, Option.map_eq_some_iff]
  constructor
  · rintro ⟨e, he, d, hd, c, hc, n, hn, rfl⟩
    exact ⟨rfl, ⟨e, he, rfl⟩, ⟨d, hd, rfl⟩, ⟨c, hc, rfl⟩, ⟨n, hn, rfl⟩⟩
  · rintro ⟨hcount, ⟨e, he, hearnings⟩, ⟨d, hd, hdeductions⟩, ⟨c, hc, hcontributions⟩,
      ⟨n, hn, hnet⟩⟩
    refine ⟨e, he, d, hd, c, hc, n, hn, ?_⟩
    rw [hearnings, hdeductions, hcontributions, hnet, ← hcount]

/-- Totals are found if the sums are within bounds, and that is all that can go wrong with them. -/
theorem totalsOf_eq_ok_iff {key : RunKey} {lines : List Line} {totals : RunTotals} :
    totalsOf key lines = .ok totals ↔ RunTotals.ofLines? lines = some totals := by
  unfold totalsOf
  cases RunTotals.ofLines? lines with
  | none => simp
  | some totals => simp

theorem totalsOf_eq_error_iff {key : RunKey} {lines : List Line} {e : EngineError} :
    totalsOf key lines = .error e ↔
      RunTotals.ofLines? lines = none ∧ e = .amountOutOfRange (.totals key) := by
  unfold totalsOf
  cases RunTotals.ofLines? lines with
  | some totals => simp
  | none => simp [eq_comm]

namespace PayrollRun

variable {config : EngineConfig} {key : RunKey} {scope : Scope} {workers : List Worker}
  {plan : ConceptPlan} {now : Int} {run : PayrollRun}

/-- Behind the two guards, what is left are the lines and their totals. -/
theorem preview_eq_bind (hstaff : eligible scope workers ≠ []) (hplan : plan.isEmpty = false) :
    preview config key scope workers plan now =
      ((eligible scope workers).mapM (Line.compute config key plan) >>= fun lines =>
        totalsOf key lines >>= fun totals =>
          .ok ⟨key, scope, .preview, totals, lines, now, currentVersion⟩) := by
  simp only [preview, List.isEmpty_iff, hstaff, hplan]
  rfl

/-- **A preview** has the lines of the eligible workers in their order, and the totals of these. -/
theorem preview_eq_ok_iff :
    preview config key scope workers plan now = .ok run ↔
      eligible scope workers ≠ [] ∧ plan.isEmpty = false ∧ ∃ lines totals,
        List.Forall₂ (fun w line => Line.compute config key plan w = .ok line)
          (eligible scope workers) lines ∧
        RunTotals.ofLines? lines = some totals ∧
        run = ⟨key, scope, .preview, totals, lines, now, currentVersion⟩ := by
  by_cases hstaff : eligible scope workers = []
  · simp [preview, hstaff, throw, throwThe, MonadExceptOf.throw, bind, Except.bind]
  by_cases hplan : plan.isEmpty = true
  · simp [preview, hstaff, hplan, throw, throwThe, MonadExceptOf.throw, bind, Except.bind]
  simp only [preview_eq_bind hstaff (Bool.eq_false_iff.2 hplan), bind_eq_ok_iff, mapM_eq_ok_iff,
    totalsOf_eq_ok_iff]
  constructor
  · rintro ⟨lines, hlines, totals, htotals, hrun⟩
    exact ⟨hstaff, Bool.eq_false_iff.2 hplan, lines, totals, hlines, htotals,
      (Except.ok.inj hrun).symm⟩
  · rintro ⟨_, _, lines, totals, hlines, htotals, rfl⟩
    exact ⟨lines, hlines, totals, htotals, rfl⟩

/-- Each line of a preview is settled for a worker. -/
theorem exists_settle_of_preview (h : preview config key scope workers plan now = .ok run) :
    ∀ line ∈ run.lines, ∃ worker salary,
      line = Line.settle config key.period plan worker salary := by
  obtain ⟨_, _, lines, totals, hlines, _, rfl⟩ := preview_eq_ok_iff.1 h
  intro line hline
  obtain ⟨worker, _, hcompute⟩ := exists_mem_of_forall₂ hlines line hline
  obtain ⟨salary, _, hsettle⟩ := Line.compute_eq_ok_iff.1 hcompute
  exact ⟨worker, salary, hsettle⟩

/-- **The lines of a preview balance.** -/
theorem isBalanced_of_preview (h : preview config key scope workers plan now = .ok run) :
    ∀ line ∈ run.lines, line.isBalanced = true := by
  intro line hline
  obtain ⟨worker, salary, rfl⟩ := exists_settle_of_preview h line hline
  exact Line.isBalanced_settle config key.period plan worker salary

/-- The lines of a preview record no amount of zero. -/
theorem isZero_of_preview (h : preview config key scope workers plan now = .ok run) :
    ∀ line ∈ run.lines, ∀ a ∈ line.applications, a.amount.isZero = false := by
  intro line hline a ha
  obtain ⟨worker, salary, rfl⟩ := exists_settle_of_preview h line hline
  exact Line.isZero_of_mem_settle ha

/-- A preview has a line, and its totals are those of its lines. -/
theorem totals_of_preview (h : preview config key scope workers plan now = .ok run) :
    run.lines ≠ [] ∧ RunTotals.ofLines? run.lines = some run.totals := by
  obtain ⟨hstaff, _, lines, totals, hlines, htotals, rfl⟩ := preview_eq_ok_iff.1 h
  refine ⟨?_, htotals⟩
  rintro rfl
  exact hstaff (List.length_eq_zero_iff.1 hlines.length_eq)

end PayrollRun

end Payroll
