import Payroll.Engine

namespace Payroll

/-!
# Fixed collaborators

A roster and a catalog that are lists.  They are asked for what a run needs, and answer
with just that.

Main definitions:

* `StaticRoster`, `StaticRoster.activeWorkers`: a list of workers, and those for a scope.
* `StaticCatalog`, `StaticCatalog.activeConcepts`: a list of concepts, and those in use.
* `Engine.ofLists`: an engine with such collaborators, as a request for a scope finds it.
-/

/-- A roster that is a list. -/
structure StaticRoster where
  workers : List Worker := []

/-- The workers of the roster who take part and are in the scope. -/
def StaticRoster.activeWorkers (roster : StaticRoster) (scope : Scope) :
    Except StoreError (List Worker) :=
  .ok (roster.workers.filter fun w => w.isActive && scope.includes w.personnelGroup)

/-- A catalog that is a list. -/
structure StaticCatalog where
  concepts : List Concept := []

/-- The concepts of the catalog that are in use. -/
def StaticCatalog.activeConcepts (catalog : StaticCatalog) : Except StoreError (List Concept) :=
  .ok (catalog.concepts.filter Concept.isActive)

/-- An engine over lists.  Its roster and its catalog are what they answer to a request
    for the scope. -/
def Engine.ofLists (config : EngineConfig) (roster : StaticRoster) (catalog : StaticCatalog)
    (backend : Backend) (scope : Scope) : Engine where
  config := config
  roster := roster.activeWorkers scope
  catalog := catalog.activeConcepts
  backend := backend

end Payroll
