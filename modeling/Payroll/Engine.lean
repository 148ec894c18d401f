import Payroll.Commit

namespace Payroll

/-!
# The engine

The engine joins the policy, the roster, the catalog and the store.

Main definitions:

* `Engine`: the parts.
* `Engine.preview`: a run that is computed and not kept.
* `Engine.commit`: lines are kept as a run.
* `Engine.committedRun?`: a run that has been kept.
* `Engine.serve`, `Engine.serveAll`: what a request, and a sequence of requests, leave of an engine.
-/

/-- A policy with the collaborators of the engine.  Roster and catalog may be unreadable. -/
structure Engine where
  config : EngineConfig := {}
  roster : Except StoreError (List Worker) := .ok []
  catalog : Except StoreError (List Concept) := .ok []
  backend : Backend := {}

namespace Engine

/-- What the roster or the catalog holds, as far as the engine is concerned. -/
def ask {α : Type} (collaborator : Except StoreError α) : Except EngineError α :=
  match collaborator with
  | .ok a => .ok a
  | .error e => .error (.collaborator e.message)

/-- Computes a run for the workers in a scope, without keeping it. -/
def preview (engine : Engine) (periodText : String) (payrollType : PayrollType) (scope : Scope)
    (now : Int) : Except EngineError PayrollRun := do
  let period ← periodOf periodText
  let workers ← ask engine.roster
  let concepts ← ask engine.catalog
  PayrollRun.preview engine.config ⟨period, payrollType⟩ scope workers
    (.ofConcepts concepts) now

/-- Keeps lines as the run of their period and type. -/
def commit (engine : Engine) (s : Submission) (runId : RunId) (now : Int) :
    Except EngineError RunId × Engine :=
  let (outcome, backend) := engine.backend.commitRun s runId now
  (outcome, { engine with backend })

/-- The run that has been kept for a period and a type. -/
def committedRun? (engine : Engine) (periodText : String) (payrollType : PayrollType) :
    Except EngineError (Option PayrollRun) × Engine :=
  match periodOf periodText with
  | .error e => (.error e, engine)
  | .ok period =>
    match engine.backend.committedRun? ⟨period, payrollType⟩ with
    | (.error e, backend) => (.error (.persistence e.message), { engine with backend })
    | (.ok run, backend) =>
      (.ok (run.map CommittedRun.toPayrollRun), { engine with backend })

/-! ### Requests -/

/-- What an engine can be asked for. -/
inductive Request where
  | preview (period : String) (payrollType : PayrollType) (scope : Scope) (now : Int)
  | commit (s : Submission) (runId : RunId) (now : Int)
  | committedRun (period : String) (payrollType : PayrollType)

/-- The engine after a request.  A preview is computed from the engine and keeps nothing. -/
def serve (engine : Engine) : Request → Engine
  | .preview _ _ _ _ => engine
  | .commit s runId now => (engine.commit s runId now).2
  | .committedRun period payrollType => (engine.committedRun? period payrollType).2

/-- The engine after a sequence of requests. -/
def serveAll (engine : Engine) (requests : List Request) : Engine := requests.foldl serve engine

end Engine

end Payroll
