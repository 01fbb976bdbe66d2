import Trischema.Registry.Export

/-!
A registry with its cache. Once a registry is frozen, it keeps each descriptor that it merges and answers with
it from then on. Whoever reads a registry, be it an export, a compiler or a service, asks it for descriptors, one
after another, and goes on with the answers.
-/

namespace Trischema

/-- A registry with the descriptors that it has merged since it was frozen. -/
structure CachedRegistry where
  registry : Registry := {}
  merged : List Descriptor := []

namespace CachedRegistry

/-- The descriptor that was kept for a class. -/
def kept? (s : CachedRegistry) (c : Class Value) : Option Descriptor :=
  (s.merged.find? fun d => d.cls.name == c.name).map fun d => { d with cls := c }

/-- Keeps a descriptor, if the registry is frozen. -/
def keep (s : CachedRegistry) (d : Descriptor) : CachedRegistry :=
  if s.registry.frozen then { s with merged := s.merged ++ [d] } else s

/-- The merged descriptor of a registered class: the one that was kept, or a new one, which is kept. -/
def descriptor (s : CachedRegistry) (cls : TypeExpr Value) : Except Error Descriptor × CachedRegistry :=
  match cls with
  | .cls c =>
    if s.registry.isRegistered c then
      match if s.registry.frozen then s.kept? c else none with
      | some d => (.ok d, s)
      | none =>
        match s.registry.merge c with
        | .ok d => (.ok d, s.keep d)
        | .error e => (.error e, s)
    else (.error (.missing (.metadata c.name.text)), s)
  | t => (.error (.missing (.metadata t.ownName)), s)

end CachedRegistry

/-- What a reader of a registry does: it asks for merged descriptors, and goes by the answers. -/
inductive Asking (α : Type)
  | answer (a : α)
  | ask (cls : TypeExpr Value) (next : Except Error Descriptor → Asking α)

namespace Asking

variable {α β : Type}

/-- Goes on after the answer. -/
def andThen : Asking α → (α → Asking β) → Asking β
  | answer a, f => f a
  | ask cls next, f => ask cls fun d => (next d).andThen f

/-- Reads a registry that merges anew for each question. -/
def onRegistry (r : Registry) : Asking α → α
  | answer a => a
  | ask cls next => (next (r.descriptor cls)).onRegistry r

/-- Reads a registry through its cache. -/
def onCache : Asking α → CachedRegistry → α × CachedRegistry
  | answer a, s => (a, s)
  | ask cls next, s => (next (s.descriptor cls).1).onCache (s.descriptor cls).2

end Asking

namespace Registry

/-- The export of a merged descriptor. -/
def exportMerged (r : Registry) (c : Class Value) (d : Descriptor) : Except Error Value := do
  let _ ← d.toRecord
  return d.recordOf (← d.properties.mapM (r.exportProperty c))

/-- The exports of classes in their order, up to the first that fails. -/
def exportAll (r : Registry) : List (Class Value) → Asking (Except Error (List Value))
  | [] => .answer (.ok [])
  | c :: cs => .ask (.cls c) fun answer =>
    match answer >>= r.exportMerged c with
    | .error e => .answer (.error e)
    | .ok v => (exportAll r cs).andThen fun rest => .answer (rest.map (v :: ·))

/-- The export of a registry. -/
def exporting (r : Registry) : Asking (Except Error Value) :=
  (r.exportAll r.sortedClasses).andThen fun entities =>
    .answer (entities.map fun vs => .record [("entities", .list vs)])

/-- The fingerprint of an export. -/
def digest (record : Value) : Except Error String := do
  return "sha256:" ++ Sha256.hexDigest (← record.toJsonText .compact .asText)

end Registry

/-- What is done to a registry. It may fail, and what it changed before stays changed. -/
abbrev Serving := ExceptT Error (StateM CachedRegistry)

namespace Serving

variable {α : Type}

def ofExcept (result : Except Error α) : Serving α := ExceptT.mk (pure result)

/-- Reads the registry through its cache. -/
def consult (client : Asking α) : Serving α := ExceptT.mk fun s => (.ok (client.onCache s).1, (client.onCache s).2)

/-- Changes the registry as a whole, or leaves it as it is. -/
def change (f : Registry → Except Error Registry) : Serving Unit := do
  let s ← get
  set { s with registry := ← ofExcept (f s.registry) }

/-- Changes the registry and keeps the change also when it ends with an error. -/
def changePartly (f : Registry → Registry × Option Error) : Serving Unit := do
  let s ← get
  set { s with registry := (f s.registry).1 }
  match (f s.registry).2 with
  | some e => ofExcept (.error e)
  | none => return ()

/-- Freezes the registry: its export is made and digested first, and stored at the end. -/
def freeze : Serving String := do
  let r := (← get).registry
  ofExcept (r.checkMutable .freeze)
  let record ← ofExcept (← consult r.exporting)
  let fingerprint ← ofExcept (Registry.digest record)
  modify fun s => { s with registry := { s.registry with fingerprint := some fingerprint } }
  return fingerprint

end Serving

/-- What may be asked of a registry: every kind of registration, freezing, and reading. -/
inductive Demand
  | entity (cls : TypeExpr Value) (name : Option String) (embedded : Option Bool) (together : Value)
  | property (cls : TypeExpr Value) (key : Value) (given : Given)
  | relationship (cls : TypeExpr Value) (key : Value) (given : Given)
  | bulk (cls : TypeExpr Value) (properties : List (Value × Given))
  | declaration (cls : TypeExpr Value) (name : Option String) (embedded : Option Bool) (together : Value)
      (properties : List (Value × Given))
  | freeze
  | reading (client : Asking Unit)

namespace Demand

/-- Whether a demand is a registration. -/
def registers : Demand → Bool
  | freeze | reading _ => false
  | _ => true

def serve : Demand → Serving Unit
  | entity cls name embedded together => Serving.change (·.registerEntity cls name embedded together)
  | property cls key given => Serving.change (·.registerProperty cls key given)
  | relationship cls key given => Serving.change (·.registerRelationship cls key given)
  | bulk cls properties => Serving.changePartly (·.registerBulk cls properties)
  | declaration cls name embedded together properties =>
    Serving.changePartly (·.declareEntity cls name embedded together properties)
  | freeze => do let _ ← Serving.freeze
  | reading client => Serving.consult client

/-- What is left of a registry after a demand, whether it was met or not. -/
def after (q : Demand) (s : CachedRegistry) : CachedRegistry := (q.serve.run s).2

end Demand

namespace CachedRegistry

/-- What a series of demands leaves of a registry. -/
def run (s : CachedRegistry) (demands : List Demand) : CachedRegistry := demands.foldl (fun s q => q.after s) s

end CachedRegistry

end Trischema
