import Payroll.Error
import Payroll.Store.Rows

namespace Payroll

/-!
# The store of committed runs

Rows are gathered in a transaction and become visible all at once when it is committed.  The store
holds at most one run for a key.

Main definitions:

* `Transaction`, `Transaction.insert`: the rows gathered so far, and the addition of a row.
* `Store`: the committed runs by key.
* `Store.commit`: a transaction becomes a run.
-/

/-- A row of any kind. -/
inductive Row where
  | header (row : RunHeader)
  | detail (row : DetailRow)
  | application (row : ApplicationRow)
  deriving DecidableEq, Repr

/-- Rows that are not visible yet. -/
structure Transaction where
  header? : Option RunHeader := none
  details : List DetailRow := []
  applications : List ApplicationRow := []
  /-- The workers that have a detail row. -/
  workers : List String := []
  deriving DecidableEq, Repr

namespace Transaction

/-- Does the worker have a detail row? -/
def hasDetail (tx : Transaction) (workerId : String) : Bool := tx.workers.contains workerId

/-- Adds the header, of which there is one. -/
def insertHeader (tx : Transaction) (row : RunHeader) : Except StoreError Transaction :=
  match tx.header? with
  | some _ => .error .repeatedHeader
  | none => .ok { tx with header? := some row }

/-- Adds a detail row of the header's run, the first one of its worker. -/
def insertDetail (tx : Transaction) (row : DetailRow) : Except StoreError Transaction :=
  match tx.header? with
  | none => .error .missingHeader
  | some header =>
    if row.runId ≠ header.runId then .error (.foreignDetail row.workerId)
    else if tx.hasDetail row.workerId then .error (.repeatedDetail row.workerId)
    else
      .ok { tx with details := tx.details ++ [row], workers := tx.workers ++ [row.workerId] }

/-- Adds an application row for a worker that has a detail row. -/
def insertApplication (tx : Transaction) (row : ApplicationRow) :
    Except StoreError Transaction :=
  match tx.header? with
  | none => .error .missingHeader
  | some _ =>
    if tx.hasDetail row.workerId then
      .ok { tx with applications := tx.applications ++ [row] }
    else .error (.strayApplication row.workerId)

/-- Adds a row.  An error leaves no trace of it. -/
def insert (tx : Transaction) : Row → Except StoreError Transaction
  | .header row => tx.insertHeader row
  | .detail row => tx.insertDetail row
  | .application row => tx.insertApplication row

/-- The run that the rows make up, once there is a header. -/
def toRun? (tx : Transaction) : Option CommittedRun :=
  tx.header?.map fun header => ⟨header, tx.details, tx.applications⟩

end Transaction

/-- The committed runs. -/
structure Store where
  runs : Table RunKey CommittedRun := .empty
  deriving DecidableEq

namespace Store

/-- Is there a run for the key? -/
def runExists (store : Store) (key : RunKey) : Bool := store.runs.contains key

/-- The run of a key. -/
def committedRun? (store : Store) (key : RunKey) : Option CommittedRun := store.runs.get? key

/-- The number of runs. -/
def count (store : Store) : Nat := store.runs.size

/-- Makes the rows of a transaction visible as the run of the header's key, which must be free. -/
def commit (store : Store) (tx : Transaction) : Except StoreError Store :=
  match tx.toRun? with
  | none => .error .missingHeader
  | some run =>
    if store.runExists run.header.key then .error (.alreadyCommitted run.header.key)
    else .ok ⟨store.runs.set run.header.key run⟩

end Store

end Payroll
