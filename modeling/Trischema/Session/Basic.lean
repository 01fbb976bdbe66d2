import Trischema.Model.Basic
import Trischema.Object.Renewal
import Trischema.Registry.Caching
import Trischema.Repository.Records
import Trischema.Repository.Connections

/-!
Sessions: a model with its registry, the instances that are held under names, and the repositories that
keep them. A step may fail, and what it changed before stays changed.
-/

namespace Trischema

/-- Where the tables of a repository are kept. -/
inductive TablePlace
  /-- with the repository, which keeps its connection until it is closed -/
  | own (connection : Connection)
  /-- in a file that repositories share -/
  | file (name : String)
  /-- nowhere: every operation finds a new database -/
  | nowhere

/-- What keeps the instances of a repository. -/
inductive Storage
  | records (records : Records)
  | tables (binding : TableBinding) (place : TablePlace)

/-- A repository with its storage. -/
structure OpenRepository where
  repository : Repository
  storage : Storage

structure Session where
  environment : List (String × String) := []
  world : World := default
  model : Model := []
  registry : Registry := {}
  /-- the descriptors that the registry keeps -/
  merged : List Descriptor := []
  /-- the default registry, where the session has one of its own -/
  fallback : Option Registry := none
  bindings : List (String × Value) := []
  repositories : List (String × OpenRepository) := []
  files : List (String × Database) := []

instance : Inhabited Session := ⟨{}⟩

namespace Session

def settings (s : Session) : Except Error Settings := Settings.read s.environment []

/-- The registry that is used where none is named. -/
def defaultRegistry (s : Session) : Registry := s.fallback.getD s.registry

def withDefaultRegistry (s : Session) (r : Registry) : Session :=
  if s.fallback.isSome then { s with fallback := some r } else { s with registry := r }

/-- Puts the new state of an instance wherever the session holds it. -/
def renew (s : Session) (o : Object Value) : Session :=
  { s with bindings := renewedNamed o s.bindings }

def hold (s : Session) (name : String) (v : Value) : Session :=
  { s with bindings := setNamed s.bindings name v }

end Session

/-- A step of a session. -/
abbrev Step := ExceptT Error (StateM Session)

namespace Step

variable {α : Type}

def ofExcept (result : Except Error α) : Step α := ExceptT.mk (pure result)

def fail (e : Error) : Step α := ofExcept (.error e)

/-- Runs an action in the world of the session. -/
def act (action : Action α) : Step α :=
  ExceptT.mk do
    let s ← get
    let (result, world) := action.runIn s.world
    set { s with world }
    return result

/-- Replaces the registry by another one, which has merged nothing yet. -/
def keepRegistry (registry : Registry) : Step Unit := modify fun s => { s with registry, merged := [] }

/-- Does something to the registry of the session. -/
def serve (m : Serving α) : Step α :=
  ExceptT.mk do
    let s ← get
    let (result, left) := m.run ⟨s.registry, s.merged⟩
    set { s with registry := left.registry, merged := left.merged }
    return result

/-- Changes the registry as a whole, or leaves it as it is. -/
def changeRegistry (change : Registry → Except Error Registry) : Step Unit := serve (Serving.change change)

/-- Changes the registry and keeps the change also when it ends with an error. -/
def changeRegistryPartly (change : Registry → Registry × Option Error) : Step Unit :=
  serve (Serving.changePartly change)

/-- Freezes the registry and answers its fingerprint. -/
def freeze : Step String := serve Serving.freeze

/-- What is held under a name. -/
def held (name : String) : Step Value := do
  match (← get).bindings.lookup name with
  | some v => return v
  | none => fail (.failure .key)

/-- Sets the clock. -/
def setClock (now : Moment) : Step Unit := modify fun s => { s with world := { s.world with clock := now } }

end Step

end Trischema
