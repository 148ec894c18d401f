import Payroll.Document.Catalog
import Payroll.Document.Policy
import Payroll.Engine
import Payroll.Yaml

namespace Payroll

/-!
# Configuration directories

A directory holds the policy, and perhaps a catalog of concepts and a roster of workers, each in a
file of its own.

Main definitions:

* `File`: what there is under the name of a file.
* `ConfigDirectory`: the three files.
* `Configuration`, `ConfigDirectory.load`: what the files say.
* `Engine.ofDirectory`: an engine with an empty store.
-/

/-- What there is under a name. -/
inductive File where
  | absent
  | directory
  | content (bytes : ByteArray)

/-- The text of a file, if it is one and can be read as text. -/
def File.text? : File → Option String
  | content bytes => String.fromUTF8? bytes
  | _ => none

/-- The files of a directory. -/
structure ConfigDirectory where
  engine : File := .absent
  concepts : File := .absent
  workers : File := .absent

/-- What the files say. -/
structure Configuration where
  engine : EngineConfig
  concepts : List Concept
  workers : List Worker
  deriving DecidableEq

/-- The file of the policy. -/
def engineFile : String := "engine.yaml"

/-- The file of the catalog. -/
def conceptsFile : String := "concepts.yaml"

/-- The file of the roster. -/
def workersFile : String := "workers.yaml"

/-- Reads a file that has to be there. -/
def File.load {α : Type} (file : File) (name : String) (decode : Document → Option α) :
    Except EngineError α :=
  match file.text? with
  | none => .error (.configNotFound name)
  | some text =>
    match (Yaml.document? text).bind decode with
    | some a => .ok a
    | none => .error (.configParseError name)

/-- Reads a file that may be missing; it holds a list in a field. -/
def File.loadList {α : Type} (file : File) (name fieldName : String)
    (decode : Document → Option α) : Except EngineError (List α) :=
  match file with
  | .absent => .ok []
  | _ => file.load name fun d => do
    let fields ← d.fields? [fieldName]
    required fields fieldName fun d => d.items?.bind (List.mapM decode)

/-- Reads the files in order, up to the first that is not as it should be. -/
def ConfigDirectory.load (dir : ConfigDirectory) : Except EngineError Configuration := do
  let engine ← dir.engine.load engineFile EngineConfig.ofDocument?
  let concepts ← dir.concepts.loadList conceptsFile "concepts" Concept.ofDocument?
  let workers ← dir.workers.loadList workersFile "workers" Worker.ofDocument?
  return { engine, concepts, workers }

/-- The engine of a directory. -/
def Engine.ofDirectory (dir : ConfigDirectory) : Except EngineError Engine := do
  let c ← dir.load
  return { config := c.engine, roster := .ok c.workers, catalog := .ok c.concepts }

end Payroll
