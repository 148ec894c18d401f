import Mathlib.Data.List.Induction
import Payroll.Proofs.Store.Moves

namespace Payroll

/-!
# What replies tell about the store

Calls and their replies determine what the store holds.  The rows that a transaction has taken since
it was started are those whose insertions were replied to with `done`; a commit with that reply
makes a run of them, and nothing else changes what can be read.  Reading is no call here, as it
changes nothing: what can be read is a function of the store.

* `accepted` — the rows that were taken according to the replies.
* `Transaction.Holds` — a transaction holds the rows that it has taken, by kind and in
  order; `Session.Follows`, `Session.run_follows` — so do the open transactions of a session
  after any calls.
* `Session.Move.store_cases` — what a call does to the store.
* `Session.Installs` — a run comes from a commit.
* `Session.store_follows_events` — **the store follows the replies**.
-/

/-! ### Rows by kind -/

/-- The header, if the row is one. -/
def Row.header? : Row → Option RunHeader
  | .header row => some row
  | _ => none

/-- The detail row, if the row is one. -/
def Row.detail? : Row → Option DetailRow
  | .detail row => some row
  | _ => none

/-- The application row, if the row is one. -/
def Row.application? : Row → Option ApplicationRow
  | .application row => some row
  | _ => none

/-- The rows are the header and the other rows of the run, each kind in its order. -/
structure CommittedRun.MadeOf (run : CommittedRun) (rows : List Row) : Prop where
  header : rows.filterMap Row.header? = [run.header]
  details : rows.filterMap Row.detail? = run.details
  applications : rows.filterMap Row.application? = run.applications

namespace Transaction

/-- The transaction holds the rows and no others, and it knows the workers of its detail rows. -/
structure Holds (tx : Transaction) (rows : List Row) : Prop where
  header : rows.filterMap Row.header? = tx.header?.toList
  details : rows.filterMap Row.detail? = tx.details
  applications : rows.filterMap Row.application? = tx.applications
  workers : tx.details.map DetailRow.workerId = tx.workers

theorem holds_nil : Holds {} [] := ⟨rfl, rfl, rfl, rfl⟩

/-- A row that is taken comes behind the others. -/
theorem Takes.holds {tx tx' : Transaction} {row : Row} {rows : List Row} (htake : tx.Takes row tx')
    (h : tx.Holds rows) : tx'.Holds (rows ++ [row]) := by
  cases htake with
  | header first =>
    refine ⟨?_, ?_, ?_, h.workers⟩
    · simp [h.header, first, Row.header?]
    · simp [h.details, Row.detail?]
    · simp [h.applications, Row.application?]
  | detail under own new =>
    refine ⟨?_, ?_, ?_, ?_⟩
    · simp [h.header, Row.header?]
    · simp [h.details, Row.detail?]
    · simp [h.applications, Row.application?]
    · simp [h.workers]
  | application under known =>
    refine ⟨?_, ?_, ?_, h.workers⟩
    · simp [h.header, Row.header?]
    · simp [h.details, Row.detail?]
    · simp [h.applications, Row.application?]

/-- A transaction with a header becomes the run that is made of its rows. -/
theorem Holds.madeOf {tx : Transaction} {rows : List Row} (h : tx.Holds rows) {run : CommittedRun}
    (hrun : tx.toRun? = some run) : run.MadeOf rows := by
  obtain ⟨header, hheader, rfl⟩ := Option.map_eq_some_iff.1 hrun
  exact ⟨by rw [h.header, hheader]; rfl, h.details, h.applications⟩

end Transaction

/-! ### Calls and replies -/

/-- The reply to a commit that came out well. -/
def isCommitted : Call × Reply → Bool
  | (.commit _, .done) => true
  | _ => false

/-- The rows that a transaction has taken, `none` if it is not open, in view of one event more. -/
def acceptNext (name : String) (rows : Option (List Row)) : Call × Reply → Option (List Row)
  | (.start other, .done) => if name = other then some [] else rows
  | (.insert other row, .done) => if name = other then rows.map (· ++ [row]) else rows
  -- A commit closes the transaction even if it is refused.
  | (.commit other, .done) => if name = other then none else rows
  | (.commit other, .refused _) => if name = other then none else rows
  | (.rollback other, .done) => if name = other then none else rows
  | _ => rows

/-- The rows that the transaction of that name has taken since it was started, if it is open. -/
def accepted (name : String) (events : List (Call × Reply)) : Option (List Row) :=
  events.foldl (acceptNext name) none

theorem accepted_concat (name : String) (events : List (Call × Reply)) (event : Call × Reply) :
    accepted name (events ++ [event]) = acceptNext name (accepted name events) event := by
  simp [accepted]

/-! ### Open transactions -/

namespace Session

theorem events_concat (s : Session) (calls : List Call) (call : Call) :
    s.events (calls ++ [call]) = s.events calls ++ [(call, ((s.run calls).step call).1)] := by
  induction calls generalizing s with
  | nil => rfl
  | cons first rest ih =>
    rw [List.cons_append, events, events, ih]
    rfl

/-- The transactions that are open hold the rows that they have taken. -/
def Follows (s : Session) (events : List (Call × Reply)) : Prop :=
  ∀ name, Option.Rel Transaction.Holds (s.transactions.get? name) (accepted name events)

variable {s s' : Session} {events : List (Call × Reply)} {call : Call} {reply : Reply}

/-- Every call keeps this up. -/
theorem Move.follows (hmove : s.Move call reply s') (h : s.Follows events) :
    s'.Follows (events ++ [(call, reply)]) := by
  intro name
  have hname := h name
  rw [accepted_concat]
  cases hmove with
  | starts =>
    simp only [acceptNext, Table.get?_set]
    split
    · exact .some Transaction.holds_nil
    · exact hname
  | takes opened taken =>
    simp only [acceptNext, Table.get?_set]
    split
    · rename_i heq
      rw [heq] at hname ⊢
      rw [opened] at hname
      -- The transaction is open, so that rows of it are known.
      generalize accepted _ events = rows at hname ⊢
      cases hname with
      | some hholds => exact .some (taken.holds hholds)
    · exact hname
  | commits | fails | undoes =>
    simp only [acceptNext, close, Table.get?_erase]
    split
    · exact .none
    · exact hname
  | rejects => exact hname
  | misses => cases call <;> exact hname

/-- **Open transactions** hold the rows that they have taken, after any calls. -/
theorem run_follows (calls : List Call) :
    (({} : Session).run calls).Follows (({} : Session).events calls) := by
  induction calls using List.reverseRecOn with
  | nil => exact fun name => .none
  | append_singleton calls call ih =>
    rw [run_concat, events_concat]
    exact (step_move _ call).follows ih

end Session

/-! ### The store -/

/-- `store.Gains run store'`: the key of the run was free, and the run is all that is new. -/
structure Store.Gains (store : Store) (run : CommittedRun) (store' : Store) : Prop where
  absent : store.runExists run.header.key = false
  runExists_eq : ∀ key, store'.runExists key
    = (decide (key = run.header.key) || store.runExists key)
  committedRun?_eq : ∀ key, store'.committedRun? key
    = if key = run.header.key then some run else store.committedRun? key
  count_eq : store'.count = store.count + 1

theorem Store.gains_set {store : Store} {run : CommittedRun}
    (free : store.runs.get? run.header.key = none) :
    store.Gains run ⟨store.runs.set run.header.key run⟩ where
  absent := Table.contains_eq_false_iff.2 free
  runExists_eq := by
    intro key
    simp only [Store.runExists, Table.contains, Table.get?_set]
    split <;> simp [*]
  committedRun?_eq := by
    intro key
    exact Table.get?_set ..
  count_eq := by
    simp [Store.count, Table.size, Table.entries_set free]

namespace Session

variable {s : Session} {key : RunKey} {run : CommittedRun}

/-- **A call** leaves the store as it is, or it is a commit that adds a run. -/
theorem Move.store_cases {s' : Session} {call : Call} {reply : Reply}
    (hmove : s.Move call reply s') :
    (isCommitted (call, reply) = false ∧ s'.store = s.store) ∨
      ∃ name tx run, call = .commit name ∧ reply = .done ∧ s.transactions.get? name = some tx ∧
        tx.toRun? = some run ∧ s.store.Gains run s'.store := by
  cases hmove with
  | commits opened complete free =>
    exact .inr ⟨_, _, _, rfl, rfl, opened, complete, Store.gains_set free⟩
  | misses => exact .inl ⟨by cases call <;> rfl, rfl⟩
  | _ => exact .inl ⟨rfl, rfl⟩

/-- A row that is rejected leaves everything as it was. -/
theorem Move.eq_of_rejected {s' : Session} {name : String} {row : Row} {e : StoreError}
    (hmove : s.Move (.insert name row) (.refused e) s') : s' = s := by
  cases hmove with
  | rejects => rfl

/-- A run that is there stays. -/
theorem committedRun?_run (h : s.store.committedRun? key = some run) (later : List Call) :
    (s.run later).store.committedRun? key = some run := by
  induction later generalizing s with
  | nil => exact h
  | cons call rest ih =>
    refine ih ?_
    rcases (s.step_move call).store_cases with ⟨_, hsame⟩ | ⟨_, _, new, _, _, _, _, hgains⟩
    · rw [hsame]
      exact h
    · -- The new run has another key.
      have hne : key ≠ new.header.key := by
        rintro rfl
        have habsent := Table.contains_eq_false_iff.1 hgains.absent
        rw [Store.committedRun?, habsent] at h
        cases h
      rw [hgains.committedRun?_eq, if_neg hne]
      exact h

/-- What a commit that comes out well makes of a transaction. -/
theorem commit_done (calls : List Call) {call : Call} {name : String}
    (hcall : call = .commit name)
    (hdone : ((({} : Session).run calls).step call).1 = .done) :
    ∃ rows run, accepted name (({} : Session).events calls) = some rows ∧ run.MadeOf rows ∧
      (({} : Session).run calls).store.Gains run
        ((({} : Session).run calls).step call).2.store := by
  rcases (step_move (({} : Session).run calls) call).store_cases with
    ⟨hnot, _⟩ | ⟨_, tx, run, h, _, hopen, hrun, hgains⟩
  · rw [hcall] at hnot hdone
    rw [hdone] at hnot
    cases hnot
  · obtain rfl := Call.commit.inj (hcall.symm.trans h)
    have hrel := run_follows calls name
    rw [hopen] at hrel
    generalize accepted name _ = rows at hrel ⊢
    cases hrel with
    | some hholds => exact ⟨_, run, rfl, hholds.madeOf hrun, hgains⟩

/-- One of the calls is a commit that came out well and made the run, under its key, of the rows
    that the transaction had taken. -/
def Installs (calls : List Call) (key : RunKey) (run : CommittedRun) : Prop :=
  ∃ before name after rows, calls = before ++ .commit name :: after ∧
    ((({} : Session).run before).step (.commit name)).1 = .done ∧
    accepted name (({} : Session).events before) = some rows ∧ run.MadeOf rows ∧
    run.header.key = key

/-- Further calls do not change this. -/
theorem Installs.concat {calls : List Call} (h : Installs calls key run) (call : Call) :
    Installs (calls ++ [call]) key run := by
  obtain ⟨before, name, after, rows, rfl, hrest⟩ := h
  exact ⟨before, name, after ++ [call], rows, by simp, hrest⟩

/-- Every run that is there comes from a commit that came out well. -/
theorem installs_of_committedRun? {calls : List Call}
    (h : (({} : Session).run calls).store.committedRun? key = some run) :
    Installs calls key run := by
  induction calls using List.reverseRecOn with
  | nil => cases h
  | append_singleton calls call ih =>
    rw [run_concat] at h
    rcases (step_move (({} : Session).run calls) call).store_cases with
      ⟨_, hsame⟩ | ⟨name, _, _, hcall, hdone, _⟩
    · exact (ih (hsame ▸ h)).concat call
    · obtain ⟨rows, new, haccepted, hmade, hgains⟩ := commit_done calls hcall hdone
      rw [hgains.committedRun?_eq] at h
      split at h
      · rename_i hkey
        obtain rfl := Option.some.inj h
        exact ⟨calls, name, [], rows, by rw [hcall], hcall ▸ hdone, haccepted, hmade, hkey.symm⟩
      · exact (ih h).concat call

/-- There are as many runs as commits that came out well. -/
theorem count_run (calls : List Call) :
    (({} : Session).run calls).store.count = (({} : Session).events calls).countP isCommitted := by
  induction calls using List.reverseRecOn with
  | nil => rfl
  | append_singleton calls call ih =>
    rw [run_concat, events_concat, List.countP_append, ← ih, List.countP_singleton]
    rcases (step_move (({} : Session).run calls) call).store_cases with
      ⟨hnot, hsame⟩ | ⟨name, _, _, hcall, hdone, _, _, hgains⟩
    · rw [hsame, hnot]
      rfl
    · rw [hgains.count_eq, hdone, hcall]
      rfl

/-- **The store follows the replies**, whatever calls have been made on it.  What can be read
    changes only with a commit that comes out well, which adds one run under a key that was free.
    That run is made of the rows that its transaction has taken since it was started; a row that is
    rejected leaves everything as it was.  Runs that are there stay as they are, each of them comes
    from such a commit, and there are as many. -/
theorem store_follows_events (calls : List Call) (call : Call) :
    let s := ({} : Session).run calls
    let reply := (s.step call).1
    let s' := (s.step call).2
    (isCommitted (call, reply) = false → s'.store = s.store) ∧
    (∀ name, call = .commit name → reply = .done →
      ∃ rows run, accepted name (({} : Session).events calls) = some rows ∧ run.MadeOf rows ∧
        s.store.Gains run s'.store) ∧
    (∀ name row e, call = .insert name row → reply = .refused e → s' = s) ∧
    (∀ key run, s.store.committedRun? key = some run →
      ∀ later, (s.run later).store.committedRun? key = some run) ∧
    (∀ key run, s.store.committedRun? key = some run → Installs calls key run) ∧
    s.store.count = (({} : Session).events calls).countP isCommitted := by
  intro s reply s'
  refine ⟨?_, fun name => commit_done calls, ?_, fun key run h => committedRun?_run h,
    fun key run => installs_of_committedRun?, count_run calls⟩
  · intro hnot
    have hmove : s.Move call reply s' := s.step_move call
    -- Nothing but a successful commit changes the store.
    rcases hmove.store_cases with ⟨_, hsame⟩ | ⟨name, _, _, hcall, hdone, _⟩
    · exact hsame
    · rw [hcall, hdone] at hnot
      cases hnot
  · rintro name row e rfl hrefused
    have hmove : s.Move (.insert name row) reply s' := s.step_move (.insert name row)
    rw [hrefused] at hmove
    exact hmove.eq_of_rejected

/-- A header. -/
def rivalHeader : RunHeader := ⟨⟨0⟩, ⟨⟨2024, 11, by decide⟩, .regular⟩, .all, .zero, 0, "test"⟩

/-- A detail row of the header's run. -/
def rivalDetail : DetailRow := ⟨⟨0⟩, 0, "w1", "1", "A B", .one, .one, .zero, .zero, .one⟩

/-- An application row of the worker. -/
def rivalApplication : ApplicationRow := ⟨⟨0⟩, "w1", ⟨"c1", "BASE", "Base", .earning, .one⟩⟩

/-- Two transactions for one key, the first of which is offered its detail row twice. -/
def rivals : List Call :=
  [.start "a", .start "b", .insert "a" (.header rivalHeader), .insert "b" (.header rivalHeader),
    .insert "a" (.detail rivalDetail), .insert "a" (.detail rivalDetail),
    .insert "a" (.application rivalApplication)]

theorem store_follows_events_rivals :
    ∃ run : CommittedRun,
      run.MadeOf [.header rivalHeader, .detail rivalDetail, .application rivalApplication] ∧
      (({} : Session).run rivals).store.Gains run
        (({} : Session).run (rivals ++ [.commit "a"])).store ∧
      (({} : Session).run (rivals ++ [.commit "a", .commit "b"])).store.committedRun?
        rivalHeader.key = some run ∧
      (({} : Session).run (rivals ++ [.commit "a", .commit "b"])).store.count = 1 := by
  obtain ⟨rows, run, haccepted, hmade, hgains⟩ :=
    (store_follows_events rivals (.commit "a")).2.1 "a" rfl (by decide +kernel)
  have hrows :
      rows = [.header rivalHeader, .detail rivalDetail, .application rivalApplication] := by
    have hcomputed : accepted "a" (({} : Session).events rivals)
        = some [.header rivalHeader, .detail rivalDetail, .application rivalApplication] := by
      decide +kernel
    exact Option.some.inj (haccepted.symm.trans hcomputed)
  subst hrows
  have hkey : run.header = rivalHeader := (List.cons.inj hmade.header).1.symm
  have hread := hgains.committedRun?_eq rivalHeader.key
  rw [hkey, if_pos rfl] at hread
  -- The second commit finds the key taken.
  obtain ⟨_, _, _, hstays, _⟩ := store_follows_events (rivals ++ [.commit "a"]) (.commit "b")
  obtain ⟨_, _, _, _, _, hcount⟩ :=
    store_follows_events (rivals ++ [.commit "a", .commit "b"]) (.start "a")
  refine ⟨run, hmade, hgains, hstays rivalHeader.key run hread [.commit "b"], hcount.trans ?_⟩
  decide +kernel

end Session

end Payroll
