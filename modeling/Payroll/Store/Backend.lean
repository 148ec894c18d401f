import Payroll.Store

namespace Payroll

/-!
# A store that can fail

A store behind an interface whose calls can fail on schedule, without having reached the store,
and whose early check for an existing run can be blind.

Main definitions:

* `Method`, `Fault`: which call fails, and why.
* `Backend`: a store, its faults, and the calls it has had.
* `Backend.call`: what any call does first.
* `Backend.runExists`, `start`, `insert`, `commit`, `rollback`, `committedRun?`: the calls.
-/

/-- The calls that can fail. -/
inductive Method where
  | runExists | start | insertHeader | insertDetail | insertApplication | commit | rollback
  | committedRun
  deriving DecidableEq, Repr

/-- The call that inserts a row. -/
def Row.method : Row → Method
  | .header _ => .insertHeader
  | .detail _ => .insertDetail
  | .application _ => .insertApplication

/-- The `nth` call of a method fails; calls of every method are counted from one. -/
structure Fault where
  method : Method
  nth : Nat
  reason : String
  deriving DecidableEq, Repr

/-- A store behind an interface that can fail. -/
structure Backend where
  store : Store := {}
  /-- Of several faults of one call the first one counts. -/
  faults : List Fault := []
  /-- The early check finds nothing. -/
  blind : Bool := false
  /-- The calls so far, the latest first. -/
  log : List Method := []
  deriving DecidableEq

namespace Backend

/-- The fault that is due if the method is called now. -/
def due? (b : Backend) (method : Method) : Option Fault :=
  b.faults.find? fun f => f.method == method && f.nth == b.log.count method + 1

/-- Counts a call and fails if a fault is due. -/
def call (b : Backend) (method : Method) : Except StoreError Unit × Backend :=
  let counted := { b with log := method :: b.log }
  match b.due? method with
  | some fault => (.error (.fault fault.reason), counted)
  | none => (.ok (), counted)

/-- Is there a run for the key, as far as the interface can see? -/
def runExists (b : Backend) (key : RunKey) : Except StoreError Bool × Backend :=
  match b.call .runExists with
  | (.error e, b) => (.error e, b)
  | (.ok (), b) => (.ok (!b.blind && b.store.runExists key), b)

/-- Opens a transaction. -/
def start (b : Backend) : Except StoreError Transaction × Backend :=
  match b.call .start with
  | (.error e, b) => (.error e, b)
  | (.ok (), b) => (.ok {}, b)

/-- Adds a row to a transaction. -/
def insert (b : Backend) (tx : Transaction) (row : Row) :
    Except StoreError Transaction × Backend :=
  match b.call row.method with
  | (.error e, b) => (.error e, b)
  | (.ok (), b) => (tx.insert row, b)

/-- Commits a transaction. -/
def commit (b : Backend) (tx : Transaction) : Except StoreError Unit × Backend :=
  match b.call .commit with
  | (.error e, b) => (.error e, b)
  | (.ok (), b) =>
    match b.store.commit tx with
    | .error e => (.error e, b)
    | .ok store => (.ok (), { b with store })

/-- Gives a transaction up. -/
def rollback (b : Backend) : Except StoreError Unit × Backend := b.call .rollback

/-- The run of a key. -/
def committedRun? (b : Backend) (key : RunKey) :
    Except StoreError (Option CommittedRun) × Backend :=
  match b.call .committedRun with
  | (.error e, b) => (.error e, b)
  | (.ok (), b) => (.ok (b.store.committedRun? key), b)

end Backend

end Payroll
