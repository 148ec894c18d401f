import Mathlib.Logic.Function.Basic
import Payroll.Commit

namespace Payroll

/-!
# Commits that race

Any number of commits run at the same time on one store, and their calls come in any order: whose
call is next is up to a schedule.

Main definitions:

* `Race`: the stages of all commits, and the backend that they share.
* `Race.step`, `Race.run`: the effect of one call and of the calls of a schedule.
* `Race.answer?`: what a commit has answered.
-/

/-- Commits at their stages, and the backend that they share. -/
structure Race (n : Nat) where
  backend : Backend
  stages : Fin n → Stage

namespace Race

variable {n : Nat}

/-- Nobody has made a call. -/
def start (n : Nat) (b : Backend) : Race n := ⟨b, fun _ => .checking⟩

/-- A commit makes its next call. -/
def step (d : Fin n → Delivery) (r : Race n) (i : Fin n) : Race n where
  backend := ((d i).step (r.stages i) r.backend).2
  stages := Function.update r.stages i ((d i).step (r.stages i) r.backend).1

/-- The calls of a schedule. -/
def run (d : Fin n → Delivery) (r : Race n) (schedule : List (Fin n)) : Race n :=
  schedule.foldl (step d) r

/-- What a commit has answered, once it has. -/
def answer? (r : Race n) (i : Fin n) : Option (Except EngineError RunId) :=
  match r.stages i with
  | .finished outcome => some outcome
  | _ => none

end Race

end Payroll
