import Payroll.Proofs.Commit.Acceptance

namespace Payroll

/-!
# The early check only saves calls

Before a commit opens a transaction, it asks whether the key is free.  The store asks again when the
transaction is committed, so that the first question decides nothing: a commit that asks in vain
writes all of its rows and is then refused with the same error.

* `Backend.refusal_of_no_faults` — without faults, a commit is refused because of what is submitted
  or because its key is taken.
* `Backend.commitAll_congr` — without faults, outcomes and runs do not depend on what the
  interface can see.
* `Backend.commitAll_blind` — **a blind check changes no outcome and no row**.
-/

namespace Backend

/-- Without faults, a commit is refused because of what is submitted, or because its key is taken.
    The rows themselves are never refused. -/
theorem refusal_of_no_faults {b : Backend} (hb : b.faults = []) {s : Submission} {runId : RunId}
    {now : Int} {e : EngineError} (h : (b.commitRun s runId now).1 = .error e) :
    e.isValidation = true ∨ ∃ key, e = .commitConflict key := by
  rcases (commitRun_eq_error_iff hb).1 h with hinvalid | ⟨period, _, _, _, _, _, _, rfl⟩
  · have hrefused : s.prepare runId now = .error e := Submission.prepare_eq_error_iff.2 hinvalid
    exact .inl (Submission.isValidation_of_prepare hrefused)
  · exact .inr ⟨⟨period, s.payrollType⟩, rfl⟩

/-- So it is for all of several commits. -/
theorem refusal_of_mem_commitAll {b : Backend} (hb : b.faults = []) {attempts : List Attempt}
    {e : EngineError} (h : .error e ∈ (b.commitAll attempts).1) :
    e.isValidation = true ∨ ∃ key, e = .commitConflict key := by
  induction attempts generalizing b with
  | nil => cases h
  | cons a rest ih =>
    rcases List.mem_cons.1 h with hfirst | hrest
    · exact refusal_of_no_faults hb hfirst.symm
    · exact ih ((faults_commitRun _ _ _ _).trans hb) hrest

/-- **Without faults**, outcomes and runs do not depend on what the interface can see, nor on the
    calls that have been. -/
theorem commitAll_congr {b b' : Backend} (hb : b.faults = []) (hb' : b'.faults = [])
    (hs : b'.store = b.store) (attempts : List Attempt) :
    (b'.commitAll attempts).1 = (b.commitAll attempts).1 ∧
      (b'.commitAll attempts).2.store = (b.commitAll attempts).2.store := by
  induction attempts generalizing b b' with
  | nil => exact ⟨rfl, hs⟩
  | cons a rest ih =>
    have hfirst : (b'.commitRun a.submission a.runId a.now).1
      = (b.commitRun a.submission a.runId a.now).1 ∧
        (b'.commitRun a.submission a.runId a.now).2.store
          = (b.commitRun a.submission a.runId a.now).2.store := commitRun_congr hb hb' hs
    obtain ⟨houtcome, hstore⟩ := hfirst
    obtain ⟨houtcomes, hstores⟩ := ih ((faults_commitRun _ _ _ _).trans hb)
      ((faults_commitRun _ _ _ _).trans hb') hstore
    simp only [commitAll, houtcome, houtcomes, hstores, and_self]

/-- **A blind check changes no outcome and no row.**  On a store without faults, commits made one
    after another succeed and fail alike, with the same errors, and leave the same runs, whether or
    not the early check can find a run.  With a blind check, too, all errors are those of what is
    submitted and conflicts, and none is a row that the store refuses. -/
theorem commitAll_blind {b : Backend} (hb : b.faults = []) (attempts : List Attempt) :
    let sighted := { b with blind := false }
    let blind := { b with blind := true }
    (∀ key, (blind.runExists key).1 = .ok false) ∧
      (blind.commitAll attempts).1 = (sighted.commitAll attempts).1 ∧
      (blind.commitAll attempts).2.store = (sighted.commitAll attempts).2.store ∧
      ∀ e, .error e ∈ (blind.commitAll attempts).1 →
        e.isValidation = true ∨ ∃ key, e = .commitConflict key := by
  intro sighted blind
  have hsighted : sighted.faults = [] := hb
  have hblind : blind.faults = [] := hb
  obtain ⟨houtcomes, hstore⟩ := commitAll_congr hsighted hblind rfl attempts
  refine ⟨fun key => ?_, houtcomes, hstore, fun e => refusal_of_mem_commitAll hblind⟩
  rw [runExists, call, due?_eq_none hblind]
  rfl

/-- A commit, a second one for its key, one without lines, and one for another key: the blind check
    makes the second one call five times in vain. -/
def crowd : List Attempt :=
  [⟨⟨"2025-03", .regular, .all, [Race.sampleLine "w1"]⟩, ⟨BitVec.ofNat 128 1⟩, 0⟩,
    ⟨⟨"2025-03", .regular, .group "office", [Race.sampleLine "w2"]⟩, ⟨BitVec.ofNat 128 2⟩, 1⟩,
    ⟨⟨"2025-03", .regular, .all, []⟩, ⟨BitVec.ofNat 128 3⟩, 2⟩,
    ⟨⟨"2025-03", .bonus, .all, [Race.sampleLine "w1"]⟩, ⟨BitVec.ofNat 128 4⟩, 3⟩]

theorem commitAll_blind_crowd :
    let blind := ({ blind := true } : Backend).commitAll crowd
    let sighted := ({} : Backend).commitAll crowd
    blind.1 = [.ok ⟨BitVec.ofNat 128 1⟩, .error (.commitConflict ⟨Race.march, .regular⟩),
        .error .emptyDetail, .ok ⟨BitVec.ofNat 128 4⟩] ∧
      blind.2.store.runs.keys = [⟨Race.march, .regular⟩, ⟨Race.march, .bonus⟩] ∧
      sighted.2.log.length = 13 ∧ blind.2.log.length = 18 := by
  intro blind sighted
  have houtcomes : sighted.1 = [.ok ⟨BitVec.ofNat 128 1⟩,
      .error (.commitConflict ⟨Race.march, .regular⟩), .error .emptyDetail,
      .ok ⟨BitVec.ofNat 128 4⟩] := by decide +kernel
  have hkeys : sighted.2.store.runs.keys = [⟨Race.march, .regular⟩, ⟨Race.march, .bonus⟩] := by
    decide +kernel
  obtain ⟨_, hsame, hstore, _⟩ := commitAll_blind (b := {}) rfl crowd
  exact ⟨hsame.trans houtcomes, hstore ▸ hkeys, by decide +kernel, by decide +kernel⟩

end Backend

end Payroll
