import Payroll.Commit
import Payroll.Proofs.Run.Preview

namespace Payroll

/-!
# What is accepted for a commit

The checks on lines run through them once, with the lines seen so far kept backwards.  Here they are
said without an order of checking.

* `Submittable` — the lines can make up a run: there are some, every worker is named and named once,
  and every net pay balances.
* `checkLines_eq_ok_iff` — the checks accept exactly such lines.
* `Submission.prepare_eq_ok_iff` — a submission is prepared exactly when its text is a period, its
  lines are submittable and its totals are within bounds; the rows to be written are then those of
  the lines under one header.
-/

/-! ### Lines -/

/-- A text is not blank if some character of it can be seen. -/
theorem Text.all_isBlank_eq_false_iff {cs : List Char} :
    cs.all Text.isBlank = false ↔ ∃ c ∈ cs, Text.isBlank c = false := by
  simp only [List.all_eq_false, Bool.not_eq_true]

/-- Lines that can make up a run. -/
structure Submittable (lines : List Line) : Prop where
  nonempty : lines ≠ []
  named : ∀ line ∈ lines, line.workerId.toList.all Text.isBlank = false
  distinct : (lines.map Line.workerId).Nodup
  balanced : ∀ line ∈ lines, line.isBalanced = true

/-- The worker of a line has an earlier one if the identifier is among theirs. -/
theorem Line.isSeen_iff {line : Line} {earlier : List Line} :
    (earlier.any fun l => l.workerId == line.workerId) = true
      ↔ line.workerId ∈ earlier.map Line.workerId := by
  simp only [List.any_eq_true, beq_iff_eq, List.mem_map]

/-- A line has no defect if its worker is named, has no earlier line, and net pay balances. -/
theorem Line.defect?_eq_none_iff {line : Line} {earlier : List Line} :
    line.defect? earlier = none ↔
      line.workerId.toList.all Text.isBlank = false ∧
        line.workerId ∉ earlier.map Line.workerId ∧ line.isBalanced = true := by
  unfold Line.defect?
  -- The cases come in the order in which the defects are looked for.
  by_cases hb : line.workerId.toList.all Text.isBlank = true
  · simp [hb]
  · rw [if_neg hb, Bool.not_eq_true] at *
    by_cases hs : line.workerId ∈ earlier.map Line.workerId
    · simp [Line.isSeen_iff.2 hs, hs]
    · rw [if_neg (fun h => hs (Line.isSeen_iff.1 h))]
      by_cases hp : line.isBalanced = true
      · simp [hp, hs, hb]
      · simp [hp]

/-- The checks behind some lines accept those that have no defect behind all the lines before. -/
theorem checkLinesAfter_eq_ok_iff {earlier lines : List Line} :
    checkLinesAfter earlier lines = .ok () ↔
      (∀ line ∈ lines, line.workerId.toList.all Text.isBlank = false) ∧
        (lines.map Line.workerId).Nodup ∧
        (∀ line ∈ lines, line.workerId ∉ earlier.map Line.workerId) ∧
        ∀ line ∈ lines, line.isBalanced = true := by
  induction lines generalizing earlier with
  | nil => simp [checkLinesAfter]
  | cons line rest ih =>
    rw [checkLinesAfter]
    cases hd : line.defect? earlier with
    | some defect =>
      -- The lines cannot be in order if the first one has a defect.
      simp only [reduceCtorEq, false_iff]
      rintro ⟨hn, _, he, hb⟩
      have hnone := Line.defect?_eq_none_iff.2
        ⟨hn line List.mem_cons_self, he line List.mem_cons_self, hb line List.mem_cons_self⟩
      rw [hd] at hnone
      exact Option.some_ne_none defect hnone
    | none =>
      obtain ⟨hn, he, hb⟩ := Line.defect?_eq_none_iff.1 hd
      -- For the lines that follow, `line` is one of those before.
      have hseen : ∀ l : Line, l.workerId ∉ (line :: earlier).map Line.workerId
          ↔ l.workerId ≠ line.workerId ∧ l.workerId ∉ earlier.map Line.workerId := by
        intro l
        rw [List.map_cons, List.mem_cons, not_or]
      simp only [ih, hseen, List.forall_mem_cons]
      rw [List.map_cons, List.nodup_cons]
      constructor
      · rintro ⟨hns, hds, hes, hbs⟩
        refine ⟨⟨hn, hns⟩, ⟨?_, hds⟩, ⟨he, fun l hl => (hes l hl).2⟩, hb, hbs⟩
        -- A later line of the same worker would have been refused.
        rw [List.mem_map]
        rintro ⟨l, hl, hid⟩
        exact (hes l hl).1 hid
      · rintro ⟨⟨_, hns⟩, ⟨hid, hds⟩, ⟨_, hes⟩, _, hbs⟩
        refine ⟨hns, hds, fun l hl => ⟨?_, hes l hl⟩, hbs⟩
        intro heq
        exact hid (heq ▸ List.mem_map_of_mem hl)

/-- **The checks** accept exactly the lines that can make up a run. -/
theorem checkLines_eq_ok_iff {lines : List Line} :
    checkLines lines = .ok () ↔ Submittable lines := by
  unfold checkLines
  by_cases he : lines = []
  · -- Without any line the checks do not even begin.
    subst he
    simp only [List.isEmpty_nil, if_true, reduceCtorEq, false_iff]
    exact fun h => h.nonempty rfl
  · rw [if_neg (by simpa using he), checkLinesAfter_eq_ok_iff]
    constructor
    · rintro ⟨hn, hd, _, hb⟩
      exact ⟨he, hn, hd, hb⟩
    · rintro ⟨_, hn, hd, hb⟩
      exact ⟨hn, hd, by simp, hb⟩

/-- A defect of a line can be mended by the caller. -/
theorem isValidation_of_checkLinesAfter {earlier lines : List Line} {e : EngineError}
    (h : checkLinesAfter earlier lines = .error e) : e.isValidation = true := by
  induction lines generalizing earlier with
  | nil => cases h
  | cons line rest ih =>
    rw [checkLinesAfter] at h
    cases hd : line.defect? earlier with
    | some defect =>
      rw [hd] at h
      rw [← Except.error.inj h]
      rfl
    | none =>
      rw [hd] at h
      exact ih h

/-- What the checks find can be mended by the caller. -/
theorem isValidation_of_checkLines {lines : List Line} {e : EngineError}
    (h : checkLines lines = .error e) : e.isValidation = true := by
  unfold checkLines at h
  split at h
  · rw [← Except.error.inj h]
    rfl
  · exact isValidation_of_checkLinesAfter h

/-! ### Submissions -/

/-- The text is refused if it is no period. -/
theorem periodOf_eq_error_iff {text : String} {e : EngineError} :
    periodOf text = .error e ↔ Period.parse? text.toList = none ∧ e = .invalidPeriod text := by
  unfold periodOf
  cases Period.parse? text.toList with
  | some period => simp
  | none => simp [eq_comm]

theorem periodOf_eq_ok_iff {text : String} {period : Period} :
    periodOf text = .ok period ↔ Period.parse? text.toList = some period := by
  unfold periodOf
  cases Period.parse? text.toList with
  | some period => simp
  | none => simp

namespace Submission

/-- The header under which a submission is written. -/
def header (s : Submission) (period : Period) (totals : RunTotals) (runId : RunId) (now : Int) :
    RunHeader where
  runId := runId
  key := ⟨period, s.payrollType⟩
  scope := s.scope
  totals := totals
  committedAt := now
  engineVersion := currentVersion

/-- **Preparing** succeeds for a period, submittable lines and totals within bounds, and then has
    the rows of these lines to write. -/
theorem prepare_eq_ok_iff {s : Submission} {runId : RunId} {now : Int} {d : Delivery} :
    s.prepare runId now = .ok d ↔
      ∃ period totals, periodOf s.period = .ok period ∧ Submittable s.lines ∧
        RunTotals.ofLines? s.lines = some totals ∧
        d = ⟨s.header period totals runId now,
          rowsOf (s.header period totals runId now) s.lines⟩ := by
  unfold prepare
  simp only [bind_eq_ok_iff, totalsOf_eq_ok_iff]
  constructor
  · rintro ⟨period, hp, ⟨⟩, hl, totals, ht, hd⟩
    exact ⟨period, totals, hp, checkLines_eq_ok_iff.1 hl, ht, (Except.ok.inj hd).symm⟩
  · rintro ⟨period, totals, hp, hl, ht, rfl⟩
    exact ⟨period, hp, (), checkLines_eq_ok_iff.2 hl, totals, ht, rfl⟩

/-- What keeps a submission from being prepared can be mended by the caller. -/
theorem isValidation_of_prepare {s : Submission} {runId : RunId} {now : Int} {e : EngineError}
    (h : s.prepare runId now = .error e) : e.isValidation = true := by
  unfold prepare at h
  rcases bind_eq_error_iff.1 h with hp | ⟨period, _, h⟩
  · rw [(periodOf_eq_error_iff.1 hp).2]
    rfl
  rcases bind_eq_error_iff.1 h with hl | ⟨_, _, h⟩
  · exact isValidation_of_checkLines hl
  rcases bind_eq_error_iff.1 h with ht | ⟨totals, _, h⟩
  · rw [(totalsOf_eq_error_iff.1 ht).2]
    rfl
  · cases h

end Submission

end Payroll
