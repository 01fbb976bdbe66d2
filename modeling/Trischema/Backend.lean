import Trischema.Document.Compiling
import Trischema.Graph.Compiling
import Trischema.Relational.Compiling

/-!
Backends. A class is compiled for a backend chosen by name; each has an artifact of its own, and all
artifacts can be exported.
-/

namespace Trischema

/-- The kinds of store that classes are compiled for. -/
inductive Backend
  | document | graph | relational
  deriving DecidableEq, Repr

namespace Backend

def all : List Backend := [document, graph, relational]

def name : Backend → String
  | document => "document"
  | graph => "graph"
  | relational => "relational"

def ofName? (s : String) : Option Backend := all.find? (·.name == s)

end Backend

/-- What a class is compiled to. -/
inductive Artifact
  | document (d : Document)
  | graph (g : Graph)
  | relational (t : Relational)

namespace Artifact

def toRecord : Artifact → Except Error Value
  | document d => .ok d.toRecord
  | graph g => g.toRecord
  | relational t => t.toRecord

/-- Compiles a class for a backend. -/
def compile (r : Registry) (settings : Except Error Settings) (cls : TypeExpr Value) (maxDepth : Option Int) :
    Backend → Warned Artifact
  | .document => .ofResult ((Document.compile r settings cls maxDepth 0 false).map document)
  | .graph => .ofResult ((Graph.compile r settings cls).map graph)
  | .relational =>
    let compiled := Relational.compile r settings cls maxDepth 0
    ⟨compiled.warnings, compiled.result.map relational⟩

/-- Compiles a class for the backend of a name. -/
def compileNamed (r : Registry) (settings : Except Error Settings) (cls : TypeExpr Value)
    (maxDepth : Option Int) (backend : String) : Warned Artifact :=
  match Backend.ofName? backend with
  | some b => compile r settings cls maxDepth b
  | none => .fail (.value (.unknownBackend backend (Backend.all.map Backend.name)))

end Artifact

end Trischema
