import Payroll.Proofs.Store.Moves

namespace Payroll

/-!
# Integrity of the store

What the store itself sees to, whatever rows it is offered, on however many transactions at a time.
Runs are kept under their own keys, detail rows name the run of their header and different workers,
and application rows name one of those workers.  The run that an application row names is not looked
at: only where no row of another run is offered do all rows of a run name it.

* `CommittedRun.Intact` — all that is seen to.
* `Transaction.Sound`, `Session.Sound` — what is true of open transactions, so that they become such
  runs, and `Session.Move.sound`: every call keeps it.
* `Session.intact_of_committedRun?` — **every run in the store is intact**.
* `Session.keeps_foreign_application` — and there can be an application row of another run in it.
-/

/-! ### Intact runs -/

/-- The rows of a run belong together, as far as the store sees to it. -/
structure CommittedRun.Intact (key : RunKey) (run : CommittedRun) : Prop where
  /-- The run is kept under the key of its header. -/
  key_eq : run.header.key = key
  runId_detail : ∀ row ∈ run.details, row.runId = run.header.runId
  distinct : (run.details.map DetailRow.workerId).Nodup
  owned : ∀ row ∈ run.applications, ∃ detail ∈ run.details, detail.workerId = row.workerId

/-! ### Transactions -/

namespace Transaction

/-- The rows of a transaction belong together.  With `own`, the application rows name the run of the
    header, too. -/
structure Sound (own : Prop) (tx : Transaction) : Prop where
  workers : tx.details.map DetailRow.workerId = tx.workers
  distinct : tx.workers.Nodup
  /-- Before the header there are no rows. -/
  empty : tx.header? = none → tx.details = [] ∧ tx.applications = []
  runId_detail : ∀ header, tx.header? = some header → ∀ row ∈ tx.details, row.runId = header.runId
  known : ∀ row ∈ tx.applications, row.workerId ∈ tx.workers
  runId_application : own → ∀ header, tx.header? = some header →
    ∀ row ∈ tx.applications, row.runId = header.runId

variable {own : Prop} {tx tx' : Transaction} {row : Row}

theorem sound_empty (own : Prop) : Sound own {} where
  workers := rfl
  distinct := List.nodup_nil
  empty := fun _ => ⟨rfl, rfl⟩
  runId_detail := by simp
  known := by simp
  runId_application := by simp

/-- A transaction stays sound with every row that it takes. -/
theorem Takes.sound (htake : tx.Takes row tx') (h : tx.Sound own)
    (hrow : own → ∀ header application, tx.header? = some header →
      row = .application application → application.runId = header.runId) : tx'.Sound own := by
  cases htake with
  | header first =>
    -- What the header says about rows is true, as there are none yet.
    obtain ⟨hdetails, happlications⟩ := h.empty first
    exact { h with
      empty := by simp
      runId_detail := by simp [hdetails]
      runId_application := by simp [happlications] }
  | @detail row header under hown new =>
    refine { workers := ?_, distinct := ?_, empty := ?_, runId_detail := ?_, known := ?_,
             runId_application := h.runId_application }
    · simp [h.workers]
    · rw [List.nodup_append]
      refine ⟨h.distinct, by simp, ?_⟩
      rintro worker hold _ hnew rfl
      exact new (List.mem_singleton.1 hnew ▸ hold)
    · simp [under]
    · intro header' hheader
      obtain rfl := Option.some.inj (under.symm.trans hheader)
      rw [List.forall_mem_append, List.forall_mem_singleton]
      exact ⟨h.runId_detail header under, hown⟩
    · intro application happlication
      exact List.mem_append_left _ (h.known application happlication)
  | @application row header under hknown =>
    refine { h with empty := ?_, known := ?_, runId_application := ?_ }
    · simp [under]
    · rw [List.forall_mem_append, List.forall_mem_singleton]
      exact ⟨h.known, hknown⟩
    · intro ho header' hheader
      rw [List.forall_mem_append, List.forall_mem_singleton]
      exact ⟨h.runId_application ho header' hheader, hrow ho header' row hheader rfl⟩

/-- A sound transaction becomes an intact run. -/
theorem Sound.intact (h : tx.Sound own) {run : CommittedRun} (hrun : tx.toRun? = some run) :
    run.Intact run.header.key ∧ (own → ∀ row ∈ run.applications, row.runId = run.header.runId) := by
  obtain ⟨header, hheader, rfl⟩ := Option.map_eq_some_iff.1 hrun
  refine ⟨⟨rfl, h.runId_detail header hheader, ?_, ?_⟩,
    fun ho => h.runId_application ho header hheader⟩
  · show (tx.details.map DetailRow.workerId).Nodup
    rw [h.workers]
    exact h.distinct
  · intro row hrow
    have hworker := h.known row hrow
    rw [← h.workers] at hworker
    exact List.mem_map.1 hworker

end Transaction

/-! ### Sessions -/

namespace Session

/-- Is an application row offered to a transaction that holds the header of another run? -/
def offersForeign (s : Session) : Call → Bool
  | .insert name (.application row) =>
    ((s.transactions.get? name).bind Transaction.header?).any fun header =>
      decide (row.runId ≠ header.runId)
  | _ => false

/-- Is this so for none of the calls, made one after the other? -/
def offersOwn (s : Session) : List Call → Bool
  | [] => true
  | call :: rest => !s.offersForeign call && (s.step call).2.offersOwn rest

/-- Open transactions are sound, and the runs in the store are intact. -/
structure Sound (own : Prop) (s : Session) : Prop where
  opened : ∀ name tx, s.transactions.get? name = some tx → tx.Sound own
  kept : ∀ key run, s.store.committedRun? key = some run → run.Intact key ∧
    (own → ∀ row ∈ run.applications, row.runId = run.header.runId)

variable {own : Prop} {s : Session} {call : Call}

theorem sound_empty (own : Prop) : Sound own {} where
  opened := by simp
  kept := by simp [Store.committedRun?]

/-- A sound transaction in place of another one, or beside the others. -/
theorem Sound.set (h : s.Sound own) (name : String) {tx : Transaction} (htx : tx.Sound own) :
    Sound own { s with transactions := s.transactions.set name tx } where
  opened := by
    intro name' tx' hget
    rw [Table.get?_set] at hget
    split at hget
    · exact Option.some.inj hget ▸ htx
    · exact h.opened name' tx' hget
  kept := h.kept

theorem Sound.close (h : s.Sound own) (name : String) : (s.close name).Sound own where
  opened := by
    intro name' tx' hget
    rw [Session.close, Table.get?_erase] at hget
    split at hget
    · cases hget
    · exact h.opened name' tx' hget
  kept := h.kept

/-- **Every call** keeps a session sound; for `own`, if no application row of another
    run is offered. -/
theorem Move.sound {s' : Session} {reply : Reply} (hmove : s.Move call reply s') (h : s.Sound own)
    (hcall : own → s.offersForeign call = false) : s'.Sound own := by
  cases hmove with
  | starts => exact h.set _ (Transaction.sound_empty own)
  | takes opened taken =>
    refine h.set _ (taken.sound (h.opened _ _ opened) ?_)
    -- The store lets any application in, so that its run is known from the call only.
    rintro ho header application hheader rfl
    have hown := hcall ho
    simp only [offersForeign, opened, Option.bind_some, hheader, Option.any_some] at hown
    exact Decidable.not_not.1 (of_decide_eq_false hown)
  | rejects => exact h
  | commits opened complete free =>
    refine { opened := (h.close _).opened, kept := ?_ }
    intro key run hget
    rw [Store.committedRun?, Table.get?_set] at hget
    split at hget
    · rename_i hkey
      obtain rfl := Option.some.inj hget
      exact hkey ▸ (h.opened _ _ opened).intact complete
    · exact h.kept key run hget
  | fails => exact h.close _
  | undoes => exact h.close _
  | misses => exact h

/-- A sequence of calls keeps a session sound. -/
theorem run_sound {calls : List Call} (h : s.Sound own) (hcalls : own → s.offersOwn calls = true) :
    (s.run calls).Sound own := by
  induction calls generalizing s with
  | nil => exact h
  | cons call rest ih =>
    simp only [offersOwn, Bool.and_eq_true, Bool.not_eq_true'] at hcalls
    exact ih ((s.step_move call).sound h fun ho => (hcalls ho).1) fun ho => (hcalls ho).2

/-- **Every run in the store** is intact, whatever calls have been made on it.  Its application rows
    name it, too, if no such row has ever been offered to a transaction of another run. -/
theorem intact_of_committedRun? (calls : List Call) {key : RunKey} {run : CommittedRun}
    (h : (({} : Session).run calls).store.committedRun? key = some run) :
    run.Intact key ∧ (({} : Session).offersOwn calls = true →
      ∀ row ∈ run.applications, row.runId = run.header.runId) :=
  (run_sound (sound_empty _) id).kept key run h

/-! ### Rows of other runs -/

/-- A run of one worker with one amount, whose row names the given run. -/
def deliveryNaming (runId : RunId) : List Call :=
  [.start "a",
    .insert "a" (.header ⟨⟨0⟩, ⟨⟨2025, 1, by decide⟩, .regular⟩, .all, .zero, 0, "test"⟩),
    .insert "a" (.detail ⟨⟨0⟩, 0, "w1", "1", "A B", .one, .one, .zero, .zero, .one⟩),
    .insert "a" (.application ⟨runId, "w1", ⟨"c1", "BASE", "Base", .earning, .one⟩⟩),
    .commit "a"]

theorem intact_of_committedRun?_own :
    ∃ run, (({} : Session).run (deliveryNaming ⟨0⟩)).store.committedRun?
        ⟨⟨2025, 1, by decide⟩, .regular⟩ = some run ∧
      run.details.length = 1 ∧ run.applications.length = 1 ∧
      ∀ row ∈ run.applications, row.runId = run.header.runId := by
  obtain ⟨run, hrun⟩ : ∃ run, (({} : Session).run (deliveryNaming ⟨0⟩)).store.committedRun?
      ⟨⟨2025, 1, by decide⟩, .regular⟩ = some run := ⟨_, rfl⟩
  obtain ⟨_, hown⟩ := intact_of_committedRun? (deliveryNaming ⟨0⟩) hrun
  refine ⟨run, hrun, ?_, ?_, hown (by decide +kernel)⟩
  · cases hrun
    rfl
  · cases hrun
    rfl

/-- An application row of another run is taken and kept. -/
theorem keeps_foreign_application :
    ∃ run, (({} : Session).run (deliveryNaming ⟨1⟩)).store.committedRun?
        ⟨⟨2025, 1, by decide⟩, .regular⟩ = some run ∧
      ∃ row ∈ run.applications, row.runId ≠ run.header.runId :=
  ⟨_, rfl, _, List.mem_cons_self, by decide⟩

end Session

end Payroll
