import Payroll.Proofs.Table
import Payroll.Store.Session

namespace Payroll

/-!
# What calls do to a session

Every row that a transaction takes, and every call on a session, said once with all that must hold
for it.  Statements about sessions go through these cases, and not through the definitions.

* `Transaction.Takes`, `Transaction.insert_eq_ok_iff` — the rows that are taken, and what
  is left then.
* `Session.Move`, `Session.step_move` — the calls, with their replies and their effects.
* `Session.run_concat` — sessions go on call by call.
-/

/-! ### Rows -/

/-- `tx.Takes row tx'`: the transaction takes the row and becomes `tx'`. -/
inductive Transaction.Takes (tx : Transaction) : Row → Transaction → Prop
  | header {row : RunHeader} (first : tx.header? = none) :
      Takes tx (.header row) { tx with header? := some row }
  | detail {row : DetailRow} {header : RunHeader} (under : tx.header? = some header)
      (own : row.runId = header.runId) (new : row.workerId ∉ tx.workers) :
      Takes tx (.detail row)
        { tx with details := tx.details ++ [row], workers := tx.workers ++ [row.workerId] }
  /-- Nothing is asked about the run that the row names. -/
  | application {row : ApplicationRow} {header : RunHeader} (under : tx.header? = some header)
      (known : row.workerId ∈ tx.workers) :
      Takes tx (.application row) { tx with applications := tx.applications ++ [row] }

theorem Transaction.insert_eq_ok_iff {tx tx' : Transaction} {row : Row} :
    tx.insert row = .ok tx' ↔ tx.Takes row tx' := by
  constructor
  · intro h
    cases row with
    | header row =>
      simp only [insert, insertHeader] at h
      split at h
      · cases h
      · rename_i hnone
        cases h
        exact .header hnone
    | detail row =>
      simp only [insert, insertDetail] at h
      split at h
      · cases h
      · rename_i header hheader
        split at h
        · cases h
        · rename_i hown
          split at h
          · cases h
          · rename_i hnew
            cases h
            exact .detail hheader (Decidable.not_not.1 hown) (by simpa [hasDetail] using hnew)
    | application row =>
      simp only [insert, insertApplication] at h
      split at h
      · cases h
      · rename_i header hheader
        split at h
        · rename_i hknown
          cases h
          exact .application hheader (by simpa [hasDetail] using hknown)
        · cases h
  · intro h
    cases h with
    | header first => simp [insert, insertHeader, first]
    | detail under own new => simp [insert, insertDetail, under, own, hasDetail, new]
    | application under known => simp [insert, insertApplication, under, hasDetail, known]

/-! ### Calls -/

/-- The transaction that a call is made on. -/
def Call.name : Call → String
  | .start name => name
  | .insert name _ => name
  | .commit name => name
  | .rollback name => name

namespace Session

/-- `s.Move call reply s'`: the call is replied to and leads to `s'`. -/
inductive Move (s : Session) : Call → Reply → Session → Prop
  | starts {name : String} :
      Move s (.start name) .done { s with transactions := s.transactions.set name {} }
  | takes {name : String} {row : Row} {tx tx' : Transaction}
      (opened : s.transactions.get? name = some tx) (taken : tx.Takes row tx') :
      Move s (.insert name row) .done { s with transactions := s.transactions.set name tx' }
  | rejects {name : String} {row : Row} {tx : Transaction} {e : StoreError}
      (opened : s.transactions.get? name = some tx) (rejected : tx.insert row = .error e) :
      Move s (.insert name row) (.refused e) s
  | commits {name : String} {tx : Transaction} {run : CommittedRun}
      (opened : s.transactions.get? name = some tx) (complete : tx.toRun? = some run)
      (free : s.store.runs.get? run.header.key = none) :
      Move s (.commit name) .done
        { s.close name with store := ⟨s.store.runs.set run.header.key run⟩ }
  | fails {name : String} {tx : Transaction} {e : StoreError}
      (opened : s.transactions.get? name = some tx) (failed : s.store.commit tx = .error e) :
      Move s (.commit name) (.refused e) (s.close name)
  | undoes {name : String} {tx : Transaction} (opened : s.transactions.get? name = some tx) :
      Move s (.rollback name) .done (s.close name)
  | misses {call : Call} (closed : s.transactions.get? call.name = none) : Move s call .notOpen s

/-- **Every call** makes one of the moves. -/
theorem step_move (s : Session) (call : Call) : s.Move call (s.step call).1 (s.step call).2 := by
  cases call with
  | start name => exact .starts
  | insert name row =>
    cases hopen : s.transactions.get? name with
    | none =>
      simp only [step, hopen]
      exact .misses hopen
    | some tx =>
      cases hinsert : tx.insert row with
      | error e =>
        simp only [step, hopen, hinsert]
        exact .rejects hopen hinsert
      | ok tx' =>
        simp only [step, hopen, hinsert]
        exact .takes hopen (Transaction.insert_eq_ok_iff.1 hinsert)
  | commit name =>
    cases hopen : s.transactions.get? name with
    | none =>
      simp only [step, hopen]
      exact .misses hopen
    | some tx =>
      cases hcommit : s.store.commit tx with
      | error e =>
        simp only [step, hopen, hcommit]
        exact .fails hopen hcommit
      | ok store =>
        simp only [step, hopen, hcommit]
        -- A commit that comes out well has found a header and a free key.
        unfold Store.commit at hcommit
        split at hcommit
        · cases hcommit
        · rename_i run hrun
          split at hcommit
          · cases hcommit
          · rename_i hfree
            cases hcommit
            exact .commits hopen hrun (Table.contains_eq_false_iff.1 (Bool.eq_false_iff.2 hfree))
  | rollback name =>
    cases hopen : s.transactions.get? name with
    | none =>
      simp only [step, hopen]
      exact .misses hopen
    | some tx =>
      simp only [step, hopen]
      exact .undoes hopen

/-- Sessions go on call by call. -/
theorem run_concat (s : Session) (calls : List Call) (call : Call) :
    s.run (calls ++ [call]) = ((s.run calls).step call).2 := by
  simp [run, List.foldl_append]

end Session

end Payroll
