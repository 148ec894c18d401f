import Payroll.Proofs.Commit.AllOrNothing
import Payroll.Proofs.Commit.Race

namespace Payroll

/-!
# Which submissions a store accepts

On a store without faults, a commit succeeds or fails because of what is submitted and because of
its key, and for no other reason.  What is wrong is said here without running through the lines: a
submission can have several defects, and the one that is reported comes first in a fixed order.

* `Line.Defective` — what is wrong with a line behind some others: its worker is not named, or has a
  line already, or net pay does not balance, in this order.
* `Submission.Invalid` — what is wrong with a submission: its period, the lack of lines, its first
  line that is defective, or its totals, in this order.
* `checkLines_eq_error_iff`, `Submission.prepare_eq_error_iff` — this is what the checks report.
* `Backend.commitRun_accepts_exactly` — **the submissions that are accepted**, and why the
  others are not.
-/

/-! ### Lines -/

/-- The worker of a line is named by some character that can be seen. -/
def Line.Named (line : Line) : Prop := ∃ c ∈ line.workerId.toList, Text.isBlank c = false

/-- What is wrong with a line behind `earlier` ones.  Of several defects the first one counts. -/
inductive Line.Defective (line : Line) (earlier : List Line) : LineDefect → Prop
  | blank (unnamed : ¬ line.Named) : Defective line earlier .blankWorker
  | repeated (named : line.Named) (seen : line.workerId ∈ earlier.map Line.workerId) :
      Defective line earlier .repeatedWorker
  | unbalanced (named : line.Named) (unseen : line.workerId ∉ earlier.map Line.workerId)
      (unequal : line.isBalanced = false) :
      Defective line earlier (.unbalanced line.netPay line.totalEarnings line.totalDeductions)

theorem Line.named_iff {line : Line} :
    line.Named ↔ line.workerId.toList.all Text.isBlank = false :=
  Text.all_isBlank_eq_false_iff.symm

/-- The defect that is found in a line. -/
theorem Line.defect?_eq_some_iff {line : Line} {earlier : List Line} {defect : LineDefect} :
    line.defect? earlier = some defect ↔ line.Defective earlier defect := by
  constructor
  · intro h
    unfold Line.defect? at h
    split at h
    · rename_i hblank
      obtain rfl := Option.some.inj h
      exact .blank (by rw [named_iff, hblank]; decide)
    · rename_i hnamed
      rw [Bool.not_eq_true, ← named_iff] at hnamed
      split at h
      · rename_i hfound
        obtain rfl := Option.some.inj h
        exact .repeated hnamed (isSeen_iff.1 hfound)
      · rename_i hfound
        split at h
        · cases h
        · rename_i hunequal
          obtain rfl := Option.some.inj h
          exact .unbalanced hnamed (fun hmem => hfound (isSeen_iff.2 hmem))
            (Bool.eq_false_iff.2 hunequal)
  · intro h
    unfold Line.defect?
    cases h with
    | blank unnamed => rw [if_pos (by rwa [named_iff, Bool.not_eq_false] at unnamed)]
    | repeated named seen =>
      rw [if_neg (by rw [named_iff.1 named]; decide), if_pos (isSeen_iff.2 seen)]
    | unbalanced named unseen unequal =>
      rw [if_neg (by rw [named_iff.1 named]; decide),
        if_neg (fun hfound => unseen (isSeen_iff.1 hfound)), if_neg (by rw [unequal]; decide)]

/-- A defect is the same for the same workers, in whichever order they come. -/
theorem Line.Defective.congr {line : Line} {earlier earlier' : List Line} {defect : LineDefect}
    (h : line.Defective earlier defect)
    (hmem : ∀ id, id ∈ earlier'.map Line.workerId ↔ id ∈ earlier.map Line.workerId) :
    line.Defective earlier' defect := by
  cases h with
  | blank unnamed => exact .blank unnamed
  | repeated named seen => exact .repeated named ((hmem _).2 seen)
  | unbalanced named unseen unequal =>
    exact .unbalanced named (fun h => unseen ((hmem _).1 h)) unequal

/-- The checks stop at the first line that has a defect behind all the lines before. -/
theorem checkLinesAfter_eq_error_iff {earlier lines : List Line} {e : EngineError} :
    checkLinesAfter earlier lines = .error e ↔
      ∃ before line after defect, lines = before ++ line :: after ∧
        checkLinesAfter earlier before = .ok () ∧
        line.defect? (before.reverse ++ earlier) = some defect ∧
        e = .invalidDetail line.workerId defect := by
  induction lines generalizing earlier with
  | nil => simp [checkLinesAfter]
  | cons line rest ih =>
    rw [checkLinesAfter]
    cases hd : line.defect? earlier with
    | some defect =>
      constructor
      · intro h
        exact ⟨[], line, rest, defect, rfl, rfl, hd, (Except.error.inj h).symm⟩
      · rintro ⟨before, other, after, defect', hlines, hbefore, hdefect, rfl⟩
        cases before with
        | nil =>
          obtain ⟨rfl, rfl⟩ := List.cons.inj hlines
          rw [List.reverse_nil, List.nil_append, hd] at hdefect
          rw [Option.some.inj hdefect]
        | cons first before =>
          -- The checks would not have passed the first line.
          obtain ⟨rfl, _⟩ := List.cons.inj hlines
          rw [checkLinesAfter, hd] at hbefore
          cases hbefore
    | none =>
      have hfirst : ∀ before, checkLinesAfter earlier (line :: before)
          = checkLinesAfter (line :: earlier) before := by
        intro before
        rw [checkLinesAfter, hd]
      dsimp only
      rw [ih]
      constructor
      · rintro ⟨before, other, after, defect, rfl, hbefore, hdefect, rfl⟩
        refine ⟨line :: before, other, after, defect, rfl, (hfirst before).trans hbefore, ?_, rfl⟩
        rwa [List.reverse_cons, List.append_assoc, List.singleton_append]
      · rintro ⟨before, other, after, defect, hlines, hbefore, hdefect, rfl⟩
        cases before with
        | nil =>
          obtain ⟨rfl, _⟩ := List.cons.inj hlines
          rw [List.reverse_nil, List.nil_append, hd] at hdefect
          cases hdefect
        | cons first before =>
          obtain ⟨rfl, rfl⟩ := List.cons.inj hlines
          rw [List.reverse_cons, List.append_assoc, List.singleton_append] at hdefect
          exact ⟨before, other, after, defect, rfl, (hfirst before).symm.trans hbefore, hdefect,
            rfl⟩

/-- The checks pass lines that can make up a run, and no lines at all. -/
theorem checkLinesAfter_nil_eq_ok_iff {lines : List Line} :
    checkLinesAfter [] lines = .ok () ↔ (lines ≠ [] → Submittable lines) := by
  cases lines with
  | nil => simp [checkLinesAfter]
  | cons line rest =>
    rw [← checkLines_eq_ok_iff, checkLines]
    simp

/-- **What the checks report**: that there are no lines, or the defect of the first line
    that has one. -/
theorem checkLines_eq_error_iff {lines : List Line} {e : EngineError} :
    checkLines lines = .error e ↔
      (lines = [] ∧ e = .emptyDetail) ∨
        ∃ before line after defect, lines = before ++ line :: after ∧
          (before ≠ [] → Submittable before) ∧ line.Defective before defect ∧
          e = .invalidDetail line.workerId defect := by
  have hreverse : ∀ (before : List Line) (line : Line) (defect : LineDefect),
      line.defect? (before.reverse ++ []) = some defect ↔ line.Defective before defect := by
    intro before line defect
    rw [Line.defect?_eq_some_iff, List.append_nil]
    constructor <;> exact fun h => h.congr (by simp)
  unfold checkLines
  by_cases hempty : lines = []
  · subst hempty
    simp [eq_comm]
  · rw [if_neg (by simpa using hempty), checkLinesAfter_eq_error_iff]
    simp only [checkLinesAfter_nil_eq_ok_iff, hreverse, hempty, false_and, false_or]

/-! ### Submissions -/

/-- What is wrong with a submission.  Of several things the first one counts. -/
inductive Submission.Invalid (s : Submission) : EngineError → Prop
  | period (unread : Period.parse? s.period.toList = none) : Invalid s (.invalidPeriod s.period)
  | empty {period : Period} (read : Period.parse? s.period.toList = some period)
      (nothing : s.lines = []) : Invalid s .emptyDetail
  /-- The lines before the defective one can make up a run. -/
  | line {period : Period} {before after : List Line} {line : Line} {defect : LineDefect}
      (read : Period.parse? s.period.toList = some period)
      (split : s.lines = before ++ line :: after) (sound : before ≠ [] → Submittable before)
      (defective : line.Defective before defect) : Invalid s (.invalidDetail line.workerId defect)
  | totals {period : Period} (read : Period.parse? s.period.toList = some period)
      (sound : Submittable s.lines) (overflow : RunTotals.ofLines? s.lines = none) :
      Invalid s (.amountOutOfRange (.totals ⟨period, s.payrollType⟩))

namespace Submission

/-- **A submission is refused before any call** exactly if something is wrong with it. -/
theorem prepare_eq_error_iff {s : Submission} {runId : RunId} {now : Int} {e : EngineError} :
    s.prepare runId now = .error e ↔ s.Invalid e := by
  unfold prepare
  simp only [bind_eq_error_iff, periodOf_eq_error_iff, periodOf_eq_ok_iff, checkLines_eq_error_iff,
    totalsOf_eq_error_iff]
  constructor
  · rintro (⟨hunread, rfl⟩ | ⟨period, hread, hlines | ⟨⟨⟩, hlines, htotals⟩⟩)
    · exact .period hunread
    · rcases hlines with
        ⟨hempty, rfl⟩ | ⟨before, line, after, defect, hsplit, hsound, hdefective, rfl⟩
      · exact .empty hread hempty
      · exact .line hread hsplit hsound hdefective
    · rcases htotals with ⟨hoverflow, rfl⟩ | ⟨totals, _, hdone⟩
      · exact .totals hread (checkLines_eq_ok_iff.1 hlines) hoverflow
      · cases hdone
  · intro h
    cases h with
    | period unread => exact .inl ⟨unread, rfl⟩
    | empty read nothing => exact .inr ⟨_, read, .inl (.inl ⟨nothing, rfl⟩)⟩
    | line read split sound defective =>
      exact .inr ⟨_, read, .inl (.inr ⟨_, _, _, _, split, sound, defective, rfl⟩)⟩
    | totals read sound overflow =>
      exact .inr ⟨_, read, .inr ⟨(), checkLines_eq_ok_iff.2 sound, .inl ⟨overflow, rfl⟩⟩⟩

end Submission

/-! ### Commits -/

namespace Backend

variable {b : Backend} {s : Submission} {runId : RunId} {now : Int}

/-- Without faults, a commit succeeds exactly if the submission can be prepared and its
    key is free. -/
theorem commitRun_eq_ok_iff (hb : b.faults = []) :
    (∃ id, (b.commitRun s runId now).1 = .ok id) ↔
      ∃ period totals, Period.parse? s.period.toList = some period ∧ Submittable s.lines ∧
        RunTotals.ofLines? s.lines = some totals ∧
        b.store.committedRun? ⟨period, s.payrollType⟩ = none := by
  constructor
  · rintro ⟨id, h⟩
    obtain ⟨d, hp, _, hfree, _⟩ := store_commitRun_of_ok h
    obtain ⟨period, totals, hread, hl, ht, rfl⟩ := Submission.prepare_eq_ok_iff.1 hp
    exact ⟨period, totals, periodOf_eq_ok_iff.1 hread, hl, ht, Table.contains_eq_false_iff.1 hfree⟩
  · rintro ⟨period, totals, hread, hl, ht, hfree⟩
    exact ⟨runId, (commitRun_of_submittable hb (periodOf_eq_ok_iff.2 hread) hl ht
      (Table.contains_eq_false_iff.2 hfree) runId now).1⟩

/-- Without faults, a commit fails because something is wrong with the submission, or else because
    its key is taken. -/
theorem commitRun_eq_error_iff (hb : b.faults = []) {e : EngineError} :
    (b.commitRun s runId now).1 = .error e ↔
      s.Invalid e ∨ ∃ period totals run, Period.parse? s.period.toList = some period ∧
        Submittable s.lines ∧ RunTotals.ofLines? s.lines = some totals ∧
        b.store.committedRun? ⟨period, s.payrollType⟩ = some run ∧
        e = .commitConflict ⟨period, s.payrollType⟩ := by
  cases hp : s.prepare runId now with
  | error e' =>
    rw [commitRun_of_not_prepare hp, Except.error.injEq]
    constructor
    · rintro rfl
      exact .inl (Submission.prepare_eq_error_iff.1 hp)
    · rintro (hinvalid | ⟨period, totals, _, hread, hl, ht, _⟩)
      · rw [Submission.prepare_eq_error_iff.2 hinvalid] at hp
        exact (Except.error.inj hp).symm
      · -- A submission that can be prepared is not refused.
        rw [Submission.prepare_eq_ok_iff.2
          ⟨period, totals, periodOf_eq_ok_iff.2 hread, hl, ht, rfl⟩] at hp
        cases hp
  | ok d =>
    -- Nothing is wrong with the submission itself, so all depends on the key.
    have hvalid : ¬ s.Invalid e := by
      intro hinvalid
      rw [Submission.prepare_eq_error_iff.2 hinvalid] at hp
      cases hp
    obtain ⟨period, totals, hread, hl, ht, rfl⟩ := Submission.prepare_eq_ok_iff.1 hp
    rw [(commitRun_of_no_faults hb hp).1, or_iff_right hvalid]
    cases hrun : b.store.committedRun? ⟨period, s.payrollType⟩ with
    | none =>
      have hfree : b.store.runExists ⟨period, s.payrollType⟩ = false :=
        Table.contains_eq_false_iff.2 hrun
      rw [Delivery.verdict_of_free hfree]
      refine iff_of_false (by simp) ?_
      rintro ⟨period', _, run, hread', _, _, htaken, _⟩
      obtain rfl := Option.some.inj ((periodOf_eq_ok_iff.1 hread).symm.trans hread')
      rw [hrun] at htaken
      cases htaken
    | some run =>
      have htaken : b.store.runExists ⟨period, s.payrollType⟩ = true := by
        rw [Store.runExists, Table.contains]
        exact Option.isSome_iff_exists.2 ⟨run, hrun⟩
      rw [Delivery.verdict_of_taken htaken, Except.error.injEq]
      constructor
      · rintro rfl
        exact ⟨period, totals, run, periodOf_eq_ok_iff.1 hread, hl, ht, hrun, rfl⟩
      · rintro ⟨period', _, _, hread', _, _, _, rfl⟩
        obtain rfl := Option.some.inj ((periodOf_eq_ok_iff.1 hread).symm.trans hread')
        rfl

/-- **A store without faults accepts exactly the submissions that are in order and whose
    key is free.**

    * A commit succeeds if and only if its text is a period, there are lines, every worker is
      named and named once, every line balances, the totals are within bounds, and there is no run
      of the key.
    * Otherwise the error is the first thing that is wrong with the submission, or the conflict if
      that is all; no error is a failure of the store, and the runs stay as they were.
    * Lines that pass the checks have rows that the store takes, one after another. -/
theorem commitRun_accepts_exactly {b : Backend} (hb : b.faults = []) (s : Submission)
    (runId : RunId) (now : Int) :
    let after := b.commitRun s runId now
    ((∃ id, after.1 = .ok id) ↔ ∃ period totals, Period.parse? s.period.toList = some period ∧
        s.lines ≠ [] ∧ (∀ line ∈ s.lines, line.Named) ∧ (s.lines.map Line.workerId).Nodup ∧
        (∀ line ∈ s.lines, line.isBalanced = true) ∧ RunTotals.ofLines? s.lines = some totals ∧
        b.store.committedRun? ⟨period, s.payrollType⟩ = none) ∧
      (∀ e, after.1 = .error e ↔ s.Invalid e ∨ ∃ period totals run,
        Period.parse? s.period.toList = some period ∧ Submittable s.lines ∧
        RunTotals.ofLines? s.lines = some totals ∧
        b.store.committedRun? ⟨period, s.payrollType⟩ = some run ∧
        e = .commitConflict ⟨period, s.payrollType⟩) ∧
      (∀ e, after.1 = .error e → after.2.store = b.store ∧ ∀ reason, e ≠ .persistence reason) ∧
      (checkLines s.lines = .ok () → ∀ header,
        ∃ tx, (rowsOf header s.lines).foldlM Transaction.insert {} = .ok tx) := by
  intro after
  refine ⟨?_, fun e => commitRun_eq_error_iff hb, fun e h => ⟨store_commitRun_of_error h, ?_⟩,
    fun h header => ⟨_, insert_rowsOf header s.lines (checkLines_eq_ok_iff.1 h).distinct⟩⟩
  · rw [commitRun_eq_ok_iff hb]
    constructor
    · rintro ⟨period, totals, hread, hl, ht, hfree⟩
      exact ⟨period, totals, hread, hl.nonempty,
        fun line hline => Line.named_iff.2 (hl.named line hline), hl.distinct, hl.balanced, ht,
        hfree⟩
    · rintro ⟨period, totals, hread, hnonempty, hnamed, hdistinct, hbalanced, ht, hfree⟩
      exact ⟨period, totals, hread,
        ⟨hnonempty, fun line hline => Line.named_iff.1 (hnamed line hline), hdistinct, hbalanced⟩,
        ht, hfree⟩
  · rintro reason rfl
    rcases (commitRun_eq_error_iff hb).1 h with hinvalid | ⟨_, _, _, _, _, _, _, hconflict⟩
    · cases hinvalid
    · cases hconflict

/-- A second line of the same worker, which is out of balance too. -/
def unpaidLine : Line := { Race.sampleLine "w1" with netPay := .zero }

/-- Behind a line that is in order: the same worker again, and a worker without a name. -/
def tangled : Submission :=
  ⟨"2025-03", .regular, .all, [Race.sampleLine "w1", unpaidLine, Race.sampleLine " "]⟩

theorem commitRun_accepts_exactly_tangled :
    ({} : Backend).faults = [] ∧
      (({} : Backend).commitRun tangled ⟨BitVec.ofNat 128 1⟩ 0).1
        = .error (.invalidDetail "w1" .repeatedWorker) ∧
      ∃ id, (({} : Backend).commitRun (Race.rivals 0) ⟨BitVec.ofNat 128 1⟩ 0).1 = .ok id := by
  have hmarch : Period.parse? "2025-03".toList = some Race.march := by decide +kernel
  have hfirst : Submittable [Race.sampleLine "w1"] := checkLines_eq_ok_iff.1 (by decide +kernel)
  have hdefective : unpaidLine.Defective [Race.sampleLine "w1"] .repeatedWorker :=
    .repeated ⟨'w', by decide, by decide⟩ (by decide)
  have hsplit : tangled.lines = [Race.sampleLine "w1"] ++ unpaidLine :: [Race.sampleLine " "] := rfl
  have hinvalid : tangled.Invalid (.invalidDetail "w1" .repeatedWorker) :=
    .line hmarch hsplit (fun _ => hfirst) hdefective
  have htotals : RunTotals.ofLines? [Race.sampleLine "w1"] = some Race.sampleTotals := by
    decide +kernel
  obtain ⟨_, herror, _⟩ :=
    commitRun_accepts_exactly (b := {}) rfl tangled ⟨BitVec.ofNat 128 1⟩ 0
  obtain ⟨haccept, _⟩ :=
    commitRun_accepts_exactly (b := {}) rfl (Race.rivals 0) ⟨BitVec.ofNat 128 1⟩ 0
  refine ⟨rfl, (herror _).2 (.inl hinvalid), haccept.2 ⟨Race.march, Race.sampleTotals, hmarch,
    hfirst.nonempty, fun line hline => ?_, hfirst.distinct, hfirst.balanced, htotals, rfl⟩⟩
  exact Line.named_iff.2 (hfirst.named line hline)

end Backend

end Payroll
