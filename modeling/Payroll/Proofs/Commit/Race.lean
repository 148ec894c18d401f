import Payroll.Commit.Race
import Payroll.Proofs.Commit.Outcome
import Payroll.Proofs.Table

namespace Payroll

/-!
# Who wins a race of commits

Several commits can find a key free before one of them commits.  The store then lets the first one
through that commits, and refuses the others.

* `Race.Undecided`, `Race.Decided` — for a key, nobody has come to an end, or one commit has won.
* `Race.Inv` — the invariant over all stages and the store: every key that was free is the one or
  the other.  `Race.step_inv` and `Race.run_inv` say that it is kept.
* `Race.answer?_of_schedule` — who is scheduled often enough comes to an end.
* `Race.exactly_one_commits` — **exactly one commit for a key succeeds**, the run of the key is its
  run, and all others are told of the conflict.
-/

/-- A stage at which nothing has come to an end and nothing has failed. -/
def Stage.Running : Stage → Prop
  | .checking | .opening | .writing _ _ => True
  | _ => False

namespace Race

variable {n : Nat} {d : Fin n → Delivery} {runs : Fin n → CommittedRun}

theorem answer?_eq_some_iff {r : Race n} {i : Fin n} {outcome : Except EngineError RunId} :
    r.answer? i = some outcome ↔ r.stages i = .finished outcome := by
  unfold answer?
  cases r.stages i <;> simp

theorem stages_step_self (r : Race n) (i : Fin n) :
    (r.step d i).stages i = ((d i).step (r.stages i) r.backend).1 :=
  Function.update_self ..

theorem stages_step_of_ne (r : Race n) {i j : Fin n} (h : j ≠ i) :
    (r.step d i).stages j = r.stages j :=
  Function.update_of_ne h ..

/-- What holds of the stage that a call leads to, and held of all the others, holds of all
    stages. -/
theorem forall_stages_step {r : Race n} {i : Fin n} {P : Fin n → Stage → Prop}
    (hself : P i ((r.step d i).stages i)) (hothers : ∀ j, j ≠ i → P j (r.stages j)) (j : Fin n) :
    P j ((r.step d i).stages j) := by
  by_cases hji : j = i
  · rw [hji]
    exact hself
  · rw [stages_step_of_ne r hji]
    exact hothers j hji

/-! ### The invariant -/

/-- Nobody has come to an end for the key, and there is no run. -/
structure Undecided (d : Fin n → Delivery) (r : Race n) (key : RunKey) : Prop where
  free : r.backend.store.runs.get? key = none
  running : ∀ i, (d i).key = key → (r.stages i).Running

/-- One commit has won the key, and its run is there; whoever else has come to an end has been told
    of the conflict. -/
structure Decided (d : Fin n → Delivery) (runs : Fin n → CommittedRun) (r : Race n) (key : RunKey)
    (winner : Fin n) : Prop where
  key_eq : (d winner).key = key
  success : r.stages winner = .finished (.ok (d winner).header.runId)
  stored : r.backend.store.runs.get? key = some (runs winner)
  others : ∀ i, (d i).key = key → i ≠ winner →
    (r.stages i).Running ∨ r.stages i = .finished (.error (.commitConflict key))

/-- What holds throughout a race on a store without faults.  The given store is the one at the
    start. -/
structure Inv (store : Store) (d : Fin n → Delivery) (runs : Fin n → CommittedRun) (r : Race n) :
    Prop where
  faultless : r.backend.faults = []
  leadsTo : ∀ i, (r.stages i).LeadsTo (runs i)
  /-- Nothing is being undone. -/
  steady : ∀ i, (r.stages i).Running ∨ ∃ outcome, r.stages i = .finished outcome
  /-- Runs that were there stay as they were. -/
  kept : ∀ key run, store.runs.get? key = some run → r.backend.store.runs.get? key = some run
  decided : ∀ key, store.runs.get? key = none →
    Undecided d r key ∨ ∃ winner, Decided d runs r key winner

theorem start_inv {b : Backend} (hb : b.faults = []) : Inv b.store d runs (start n b) where
  faultless := hb
  leadsTo _ := trivial
  steady _ := .inl trivial
  kept _ _ h := h
  decided _ h := .inl ⟨h, fun _ _ => trivial⟩

/-! ### What one call does to a key -/

/-- What a call on a store without faults can be, seen from outside: its commit goes on, or it is
    refused because the key is taken, or it installs its run because the key is free, or it had come
    to an end before. -/
inductive Effect (d : Delivery) (run : CommittedRun) (b b' : Backend) (stage stage' : Stage) : Prop
  | continues (before : stage.Running) (after : stage'.Running) (store : b'.store = b.store)
  | loses (before : stage.Running) (taken : b.store.runs.contains d.key = true)
      (after : stage' = .finished (.error (.commitConflict d.key))) (store : b'.store = b.store)
  | wins (before : stage.Running) (free : b.store.runs.get? d.key = none)
      (after : stage' = .finished (.ok d.header.runId))
      (store : b'.store = ⟨b.store.runs.set d.key run⟩)
  | stays (after : stage' = stage) (ended : ¬ stage.Running) (store : b'.store = b.store)

/-- Every call has one of these effects, unless a failure is being undone. -/
theorem effect_of_move {d : Delivery} {run : CommittedRun} {b b' : Backend} {stage stage' : Stage}
    (hb : b.faults = []) (hs : stage.Running ∨ ∃ outcome, stage = .finished outcome)
    (h : d.Move run b stage stage' b') : Effect d run b b' stage stage' := by
  have hnone := Backend.due?_eq_none hb
  -- No call fails, so that four moves are left out and the rest falls into the four effects.
  cases h with
  | checkFails due | startFails due | insertFails due | commitFails due =>
    rw [hnone] at due
    cases due
  | refused due taken => exact .loses trivial taken rfl rfl
  | overtaken due taken => exact .loses trivial taken rfl rfl
  | passes due => exact .continues trivial trivial rfl
  | starts due => exact .continues trivial trivial rfl
  | inserts due taken => exact .continues trivial trivial rfl
  | commits due free => exact .wins trivial (Table.contains_eq_false_iff.1 free) rfl rfl
  | undoes =>
    rcases hs with h | ⟨_, h⟩
    · exact h.elim
    · cases h
  | rests => exact .stays rfl (fun h => h) rfl

theorem Effect.steady {d : Delivery} {run : CommittedRun} {b b' : Backend} {stage stage' : Stage}
    (h : Effect d run b b' stage stage')
    (hs : stage.Running ∨ ∃ outcome, stage = .finished outcome) :
    stage'.Running ∨ ∃ outcome, stage' = .finished outcome := by
  cases h with
  | continues before after store => exact .inl after
  | loses before taken after store => exact .inr ⟨_, after⟩
  | wins before free after store => exact .inr ⟨_, after⟩
  | stays after ended store => rwa [after]

/-- A key has a new run after a call only if it had none and is the key of the commit. -/
theorem Effect.get? {d : Delivery} {run : CommittedRun} {b b' : Backend} {stage stage' : Stage}
    (h : Effect d run b b' stage stage') {key : RunKey}
    (hkey : key ≠ d.key ∨ b.store.runs.get? key ≠ none) :
    b'.store.runs.get? key = b.store.runs.get? key := by
  cases h with
  | continues before after store => rw [store]
  | loses before taken after store => rw [store]
  | stays after ended store => rw [store]
  | wins before free after store =>
    have hne : key ≠ d.key := hkey.elim id fun hsome heq => hsome (heq ▸ free)
    rw [store, Table.get?_set, if_neg hne]

/-! ### The invariant is kept -/

theorem Undecided.frame {r r' : Race n} {key : RunKey} (h : Undecided d r key)
    (hstore : r'.backend.store.runs.get? key = r.backend.store.runs.get? key)
    (hstages : ∀ j, (d j).key = key → r'.stages j = r.stages j) : Undecided d r' key where
  free := hstore.trans h.free
  running j hj := (hstages j hj).symm ▸ h.running j hj

theorem Decided.frame {r r' : Race n} {key : RunKey} {winner : Fin n}
    (h : Decided d runs r key winner)
    (hstore : r'.backend.store.runs.get? key = r.backend.store.runs.get? key)
    (hstages : ∀ j, (d j).key = key → r'.stages j = r.stages j) :
    Decided d runs r' key winner where
  key_eq := h.key_eq
  success := (hstages winner h.key_eq).trans h.success
  stored := hstore.trans h.stored
  others j hj hne := (hstages j hj).symm ▸ h.others j hj hne

/-- While nobody has come to an end, a call goes on or wins. -/
theorem Undecided.step {r : Race n} {i : Fin n} (h : Undecided d r (d i).key)
    (he : Effect (d i) (runs i) r.backend (r.step d i).backend (r.stages i)
      ((r.step d i).stages i)) :
    Undecided d (r.step d i) (d i).key ∨
      ∃ winner, Decided d runs (r.step d i) (d i).key winner := by
  cases he with
  | continues before after store =>
    have hrunning : ∀ j, (d j).key = (d i).key → ((r.step d i).stages j).Running :=
      forall_stages_step (P := fun j stage => (d j).key = (d i).key → stage.Running)
        (fun _ => after) fun j _ => h.running j
    exact .inl ⟨by rw [store]; exact h.free, hrunning⟩
  | loses before taken after store =>
    rw [Table.contains_eq_false_iff.2 h.free] at taken
    cases taken
  | wins before free after store =>
    refine .inr ⟨i, rfl, after, ?_, fun j hj hne => ?_⟩
    · rw [store, Table.get?_set, if_pos rfl]
    · rw [stages_step_of_ne r hne]
      exact .inl (h.running j hj)
  | stays after ended store => exact absurd (h.running i rfl) ended

/-- A commit that has won has still won after a call of another one that adds no run. -/
theorem Decided.next {r : Race n} {i winner : Fin n} (h : Decided d runs r (d i).key winner)
    (hne : winner ≠ i) (hstore : (r.step d i).backend.store = r.backend.store)
    (hafter : ((r.step d i).stages i).Running ∨
      (r.step d i).stages i = .finished (.error (.commitConflict (d i).key))) :
    Decided d runs (r.step d i) (d i).key winner where
  key_eq := h.key_eq
  success := (stages_step_of_ne r hne).trans h.success
  stored := by
    rw [hstore]
    exact h.stored
  others :=
    forall_stages_step
      (P := fun j stage => (d j).key = (d i).key → j ≠ winner →
        stage.Running ∨ stage = .finished (.error (.commitConflict (d i).key)))
      (fun _ _ => hafter) fun j _ => h.others j

/-- Once a commit has won, a call of another one goes on or loses. -/
theorem Decided.step {r : Race n} {i winner : Fin n} (h : Decided d runs r (d i).key winner)
    (he : Effect (d i) (runs i) r.backend (r.step d i).backend (r.stages i)
      ((r.step d i).stages i)) :
    Decided d runs (r.step d i) (d i).key winner := by
  -- A commit that still runs is not the winner.
  have hne : (r.stages i).Running → winner ≠ i := by
    rintro hrun rfl
    rw [h.success] at hrun
    exact hrun
  cases he with
  | continues before after store => exact h.next (hne before) store (.inl after)
  | loses before taken after store => exact h.next (hne before) store (.inr after)
  | wins before free after store =>
    -- The key is taken by the run of the winner.
    rw [h.stored] at free
    cases free
  | stays after ended store =>
    have hstages : ∀ j, (r.step d i).stages j = r.stages j :=
      forall_stages_step (P := fun j stage => stage = r.stages j) after fun _ _ => rfl
    exact h.frame (by rw [store]) fun j _ => hstages j

/-- **No call breaks the invariant.** -/
theorem step_inv (hd : ∀ i, (d i).Makes (runs i)) {store : Store} {r : Race n}
    (h : Inv store d runs r) (i : Fin n) : Inv store d runs (r.step d i) := by
  -- Of the commit that moves, all that is used is its move and the effect of that.
  have hmove := Delivery.move_step (hd i) (h.leadsTo i) r.backend
  rw [← stages_step_self r i] at hmove
  have heffect := effect_of_move h.faultless (h.steady i) hmove
  constructor
  case faultless => exact hmove.faults.trans h.faultless
  case leadsTo =>
    exact forall_stages_step (P := fun j stage => stage.LeadsTo (runs j))
      (hmove.leadsTo (hd i) (h.leadsTo i)) fun j _ => h.leadsTo j
  case steady =>
    exact forall_stages_step
      (P := fun _ stage => stage.Running ∨ ∃ outcome, stage = .finished outcome)
      (heffect.steady (h.steady i)) fun j _ => h.steady j
  case kept =>
    intro key run hrun
    have hold := h.kept key run hrun
    exact (heffect.get? (.inr (by rw [hold]; exact Option.some_ne_none run))).trans hold
  case decided =>
    intro key hfree
    by_cases hk : (d i).key = key
    · -- A commit for this key moves.
      subst hk
      rcases h.decided _ hfree with hu | ⟨winner, hw⟩
      · exact hu.step heffect
      · exact .inr ⟨winner, hw.step heffect⟩
    · -- Commits for other keys neither move one of this key nor touch its run.
      have hstore := heffect.get? (.inl (Ne.symm hk))
      have hstages : ∀ j, (d j).key = key → (r.step d i).stages j = r.stages j := by
        intro j hj
        exact stages_step_of_ne r fun hji => hk (hji ▸ hj)
      rcases h.decided key hfree with hu | ⟨winner, hw⟩
      · exact .inl (hu.frame hstore hstages)
      · exact .inr ⟨winner, hw.frame hstore hstages⟩

/-- **No schedule breaks the invariant.** -/
theorem run_inv (hd : ∀ i, (d i).Makes (runs i)) {store : Store} {r : Race n}
    (h : Inv store d runs r) (schedule : List (Fin n)) : Inv store d runs (r.run d schedule) := by
  induction schedule generalizing r with
  | nil => exact h
  | cons i rest ih => exact ih (step_inv hd h i)

/-! ### Coming to an end -/

theorem answer?_of_remaining {r : Race n} {i : Fin n} (h : (d i).remaining (r.stages i) = 0) :
    (r.answer? i).isSome = true := by
  unfold answer?
  cases hs : r.stages i with
  | finished outcome => rfl
  | _ => simp [hs, Delivery.remaining] at h

/-- A call brings its commit nearer to the end and leaves the others where they are. -/
theorem remaining_step_le (r : Race n) (i j : Fin n) :
    (d j).remaining ((r.step d i).stages j)
      ≤ (d j).remaining (r.stages j) - if i = j then 1 else 0 := by
  by_cases hij : i = j
  · subst hij
    rw [stages_step_self, if_pos rfl]
    by_cases hpos : 0 < (d i).remaining (r.stages i)
    · have := (d i).remaining_step_lt (r.stages i) r.backend hpos
      omega
    · -- At the end no call is left, and none comes back.
      have hzero : (d i).remaining (r.stages i) = 0 := by omega
      obtain ⟨outcome, houtcome⟩ := Option.isSome_iff_exists.1 (answer?_of_remaining hzero)
      rw [answer?_eq_some_iff.1 houtcome]
      exact Nat.zero_le _
  · rw [stages_step_of_ne r (Ne.symm hij), if_neg hij]
    exact Nat.le_refl _

theorem remaining_run_le (r : Race n) (schedule : List (Fin n)) (j : Fin n) :
    (d j).remaining ((r.run d schedule).stages j)
      ≤ (d j).remaining (r.stages j) - schedule.count j := by
  induction schedule generalizing r with
  | nil => exact Nat.le_refl _
  | cons i rest ih =>
    have hrest := ih (r.step d i)
    have hstep := remaining_step_le (d := d) r i j
    rw [List.count_cons]
    simp only [beq_iff_eq]
    show (d j).remaining (((r.step d i).run d rest).stages j) ≤ _
    omega

/-- A commit makes at most four calls more than it has rows. -/
theorem answer?_of_schedule (b : Backend) (schedule : List (Fin n)) (i : Fin n)
    (h : (d i).rows.length + 4 ≤ schedule.count i) :
    (((start n b).run d schedule).answer? i).isSome = true := by
  have hle := remaining_run_le (d := d) (start n b) schedule i
  have hstart : (d i).remaining ((start n b).stages i) = (d i).rows.length + 4 := rfl
  have hzero : (d i).remaining (((start n b).run d schedule).stages i) = 0 := by omega
  exact answer?_of_remaining hzero

/-! ### Left alone -/

/-- A whole commit begins with its next step. -/
theorem run_step (d : Delivery) (stage : Stage) (b : Backend) :
    d.run (d.step stage b).1 (d.step stage b).2 = d.run stage b := by
  cases stage with
  | finished outcome => rfl
  | _ => rw [Delivery.run]

/-- A commit that is left alone does what a whole commit does. -/
theorem run_replicate (r : Race n) (i : Fin n) (calls : Nat)
    (h : (d i).remaining (r.stages i) ≤ calls) :
    (r.run d (List.replicate calls i)).answer? i = some ((d i).run (r.stages i) r.backend).1 ∧
      (r.run d (List.replicate calls i)).backend = ((d i).run (r.stages i) r.backend).2 := by
  induction calls generalizing r with
  | zero =>
    obtain ⟨outcome, houtcome⟩ :=
      Option.isSome_iff_exists.1 (answer?_of_remaining (Nat.le_zero.1 h))
    rw [answer?_eq_some_iff.1 houtcome, Delivery.run]
    exact ⟨houtcome, rfl⟩
  | succ calls ih =>
    -- Each call leaves one less to be made.
    have hle : (d i).remaining ((r.step d i).stages i) ≤ calls := by
      have hstep := remaining_step_le (d := d) r i i
      rw [if_pos rfl] at hstep
      omega
    have hrest := ih (r.step d i) hle
    rw [stages_step_self] at hrest
    show ((r.step d i).run d (List.replicate calls i)).answer? i = _ ∧
      ((r.step d i).run d (List.replicate calls i)).backend = _
    have hbackend : (r.step d i).backend = ((d i).step (r.stages i) r.backend).2 := rfl
    rw [hrest.1, hrest.2, hbackend, run_step]
    exact ⟨rfl, rfl⟩

/-! ### Exactly one -/

/-- **Exactly one commit for a key succeeds.** Take any number of submissions that can be prepared,
    for any keys, and let them be committed at the same time on a store without faults, their calls
    coming in the order of any schedule.

    * Who is scheduled often enough comes to an end.
    * When all have come to an end, then for every key that was free and that some of them are for,
      exactly one of those has succeeded; the run of the key is under its identifier and made up of
      its lines; and all the others have been told of the conflict.
    * Runs that were there, and keys that none of them is for, are as before. -/
theorem exactly_one_commits (s : Fin n → Submission) (runId : Fin n → RunId) (now : Fin n → Int)
    (d : Fin n → Delivery) (hs : ∀ i, (s i).prepare (runId i) (now i) = .ok (d i))
    (b : Backend) (hb : b.faults = []) (schedule : List (Fin n)) :
    let r := (start n b).run d schedule
    (∀ i, (d i).rows.length + 4 ≤ schedule.count i → (r.answer? i).isSome = true) ∧
      ((∀ i, (r.answer? i).isSome = true) →
        ∀ key, b.store.committedRun? key = none → (∃ i, (d i).key = key) →
          ∃ winner, (d winner).key = key ∧
            r.answer? winner = some (.ok (runId winner)) ∧
            r.backend.store.committedRun? key
              = some (.ofLines (d winner).header (s winner).lines) ∧
            (d winner).header.runId = runId winner ∧
            ∀ i, (d i).key = key → i ≠ winner →
              r.answer? i = some (.error (.commitConflict key))) ∧
      (∀ key run, b.store.committedRun? key = some run →
        r.backend.store.committedRun? key = some run) ∧
      ∀ key, (∀ i, (d i).key ≠ key) →
        r.backend.store.committedRun? key = b.store.committedRun? key := by
  intro r
  have hinv : Inv b.store d (fun i => .ofLines (d i).header (s i).lines) r :=
    run_inv (fun i => Submission.makes_of_prepare (hs i)) (start_inv hb) schedule
  refine ⟨fun i => answer?_of_schedule b schedule i, ?_, hinv.kept, ?_⟩
  · -- Since all have come to an end, the key cannot be undecided.
    rintro hended key hfree ⟨i, hi⟩
    have hstopped : ∀ j, ¬ (r.stages j).Running := by
      intro j hrun
      obtain ⟨outcome, houtcome⟩ := Option.isSome_iff_exists.1 (hended j)
      rw [answer?_eq_some_iff.1 houtcome] at hrun
      exact hrun
    rcases hinv.decided key hfree with hu | ⟨winner, hw⟩
    · exact absurd (hu.running i hi) (hstopped i)
    · have hid : (d winner).header.runId = runId winner := by
        obtain ⟨period, totals, _, _, _, hd⟩ := Submission.prepare_eq_ok_iff.1 (hs winner)
        rw [hd]
        rfl
      refine ⟨winner, hw.key_eq, ?_, hw.stored, hid, fun j hj hne => ?_⟩
      · rw [answer?_eq_some_iff, hw.success, hid]
      · exact answer?_eq_some_iff.2 ((hw.others j hj hne).resolve_left (hstopped j))
  · -- A key that nobody is for has no winner.
    intro key hnone
    cases hold : b.store.committedRun? key with
    | some run => exact hinv.kept key run hold
    | none =>
      rcases hinv.decided key hold with hu | ⟨winner, hw⟩
      · exact hu.free
      · exact absurd hw.key_eq (hnone winner)

/-! ### Three at once -/

/-- A line of one worker, with one earning and one deduction of zero. -/
def sampleLine (workerId : String) : Line where
  workerId := workerId
  documentNumber := "40112233"
  fullName := "Ana Quispe"
  basicSalary := .hundred
  totalEarnings := .hundred
  totalDeductions := .zero
  totalContributions := .zero
  netPay := .hundred
  applications := [⟨"c1", "BASE", "Base", .earning, .hundred⟩,
    ⟨"c2", "AFP", "Pension", .deduction, .zero⟩]

/-- Two submissions for one key, and one for another. -/
def rivals : Fin 3 → Submission
  | 0 => ⟨"2025-03", .regular, .all, [sampleLine "w1"]⟩
  | 1 => ⟨"2025-03", .regular, .group "office", [sampleLine "w2"]⟩
  | 2 => ⟨"2025-03", .bonus, .all, [sampleLine "w1"]⟩

/-- The period of the three. -/
def march : Period := ⟨2025, 3, by decide⟩

/-- The totals of each of the three. -/
def sampleTotals : RunTotals :=
  ⟨1, roundMoney .hundred, roundMoney .zero, roundMoney .zero, roundMoney .hundred⟩

/-- What the three have to write. -/
def rivalDelivery (i : Fin 3) : Delivery :=
  let header := (rivals i).header march sampleTotals ⟨BitVec.ofNat 128 i⟩ 0
  ⟨header, rowsOf header (rivals i).lines⟩

/-- Call by call in turn: all find their keys free before the first one commits. -/
def inTurn : List (Fin 3) := (List.replicate 7 [0, 1, 2]).flatten

theorem exactly_one_commits_in_turn :
    (∀ i, (rivals i).prepare ⟨BitVec.ofNat 128 i⟩ 0 = .ok (rivalDelivery i)) ∧
      ∃ winner, (rivalDelivery winner).key = ⟨march, .regular⟩ ∧
        ((start 3 {}).run rivalDelivery inTurn).answer? winner
          = some (.ok ⟨BitVec.ofNat 128 winner⟩) ∧
        ((start 3 {}).run rivalDelivery inTurn).backend.store.committedRun? ⟨march, .regular⟩
          = some (.ofLines (rivalDelivery winner).header (rivals winner).lines) ∧
        ∀ i, (rivalDelivery i).key = ⟨march, .regular⟩ → i ≠ winner →
          ((start 3 {}).run rivalDelivery inTurn).answer? i
            = some (.error (.commitConflict ⟨march, .regular⟩)) := by
  have hprepare : ∀ i, (rivals i).prepare ⟨BitVec.ofNat 128 i⟩ 0 = .ok (rivalDelivery i)
    | 0 => rfl
    | 1 => rfl
    | 2 => rfl
  obtain ⟨hend, hone, _⟩ :=
    exactly_one_commits rivals (fun i => ⟨BitVec.ofNat 128 i⟩) (fun _ => 0) rivalDelivery
      hprepare {} rfl inTurn
  have hcalls : ∀ i, (rivalDelivery i).rows.length + 4 ≤ inTurn.count i := by decide
  obtain ⟨winner, hkey, hanswer, hstored, _, hothers⟩ :=
    hone (fun i => hend i (hcalls i)) ⟨march, .regular⟩ rfl ⟨0, rfl⟩
  exact ⟨hprepare, winner, hkey, hanswer, hstored, hothers⟩

end Race

end Payroll
