import Payroll.Store

namespace Payroll

/-!
# Sessions with the store

Any number of transactions can be open at a time.  Each one is known by a name, and calls on them
come in any order.

Main definitions:

* `Call`, `Reply`: what is asked of the store, and how it answers.
* `Session`: a store with the transactions that are open.
* `Session.step`, `Session.run`: the effect of a call and of a sequence of calls.
* `Session.events`: the calls with their replies.
-/

/-- A call on the transaction of the given name. -/
inductive Call where
  | start (name : String)
  | insert (name : String) (row : Row)
  | commit (name : String)
  | rollback (name : String)
  deriving DecidableEq, Repr

/-- The answer to a call. -/
inductive Reply where
  | done
  | refused (error : StoreError)
  /-- No transaction of that name is open. -/
  | notOpen
  deriving DecidableEq, Repr

/-- A store and the open transactions. -/
structure Session where
  store : Store := {}
  transactions : Table String Transaction := .empty
  deriving DecidableEq

namespace Session

/-- The transaction of that name is open no more. -/
def close (s : Session) (name : String) : Session :=
  { s with transactions := s.transactions.erase name }

/-- The effect of a call.  Starting a transaction replaces an open one of that name; committing
    and rolling back close it whatever the store says. -/
def step (s : Session) (call : Call) : Reply × Session :=
  match call with
  | .start name => (.done, { s with transactions := s.transactions.set name {} })
  | .insert name row =>
    match s.transactions.get? name with
    | none => (.notOpen, s)
    | some tx =>
      match tx.insert row with
      | .error e => (.refused e, s)
      | .ok tx => (.done, { s with transactions := s.transactions.set name tx })
  | .commit name =>
    match s.transactions.get? name with
    | none => (.notOpen, s)
    | some tx =>
      match s.store.commit tx with
      | .error e => (.refused e, s.close name)
      | .ok store => (.done, { s.close name with store })
  | .rollback name =>
    match s.transactions.get? name with
    | none => (.notOpen, s)
    | some _ => (.done, s.close name)

/-- The session after a sequence of calls. -/
def run (s : Session) (calls : List Call) : Session :=
  calls.foldl (fun s call => (s.step call).2) s

/-- The calls with their replies. -/
def events (s : Session) : List Call → List (Call × Reply)
  | [] => []
  | call :: rest => (call, (s.step call).1) :: (s.step call).2.events rest

end Session

end Payroll
