import Trischema.Record.Pipeline
import Trischema.Registry.Merging

/-!
Repositories: what stores of every kind share. A repository binds a class with an identifier to a store;
it hands records to a hydrator, and after a successful write it runs the hook of the instance and publishes
what the instance recorded. A write is a computation over the instance, the store and the world that keeps
their state when it fails.
-/

namespace Trischema

/-- Who receives the events of instances. -/
inductive Publisher
  | accepting | failing
  deriving DecidableEq, Repr

/-- How records become what a read answers. -/
inductive Hydrator
  /-- the record itself -/
  | whole
  /-- one value of the record -/
  | project (key : String)
  | failing
  deriving DecidableEq, Repr

structure Repository where
  descriptor : Descriptor
  identifier : Property
  hydrator : Option Hydrator := none
  publisher : Option Publisher := none
  /-- the batches of events that were published -/
  published : List (List (Event Value)) := []

namespace Repository

/-- Binds a class; one without an identifier cannot be stored. -/
def ofDescriptor (d : Descriptor) (publisher : Option Publisher) : Except Error Repository :=
  match d.identifier? with
  | some identifier => .ok { descriptor := d, identifier, publisher }
  | none => .error (.definition (.noIdentifier d.name) ⟨some d.name, none⟩)

def entity (r : Repository) : String := r.descriptor.name

/-- What a read answers for a record. -/
def hydrate (r : Repository) (record : Record) : Except Error Value :=
  match r.hydrator with
  | none => .error (.hydration r.entity)
  | some .whole => .ok record.toValue
  | some (.project key) =>
    match record.lookup key with
    | some v => .ok v
    | none => .error (.failure .key)
  | some .failing => .error (.failure .program)

/-- What a read answers for several records. -/
def hydrateAll (r : Repository) (records : List Record) : Except Error (List Value) := records.mapM r.hydrate

/-- Refuses to read without a hydrator. -/
def requireHydrator (r : Repository) : Except Error Unit :=
  if r.hydrator.isSome then .ok () else .error (.hydration r.entity)

/-- The text under which an instance is stored. -/
def entityId (r : Repository) (entity : Value) : Except Error String :=
  let v := entity.attributeOrNull r.identifier.key
  if v.isNull then .error (.value (.noIdentifierValue r.entity r.identifier.key))
  else v.serialize.map Value.display

/-- The entries of a query, all of which must name properties. -/
def queryEntries (r : Repository) (query : Value) : Except Error (List (Value × Value)) :=
  match query with
  | .mapping es =>
    let known (key : Value) : Bool := key.text?.any fun k => (r.descriptor.get? k).isSome
    let unknown := (es.map (·.1)).filter (!known ·)
    if unknown.isEmpty then .ok es else .error (.missing (.properties r.entity unknown))
  | _ => .error (.failure .kind)

/-- The answers whose value under a key is equal to a given one. -/
def keepWhere (key v : Value) : List Value → Except Error (List Value)
  | [] => .ok []
  | x :: xs => do
    let .mapping es := x | .error (.failure .kind)
    let some w := Value.entry? key es | .error (.failure .key)
    let rest ← keepWhere key v xs
    return if w.same v then x :: rest else rest

/-- Which instances are selected: by one value of what they hydrate to, or by a pipeline over records. -/
inductive Selection
  | equal (key v : Value)
  | stages (stages : List Value)

/-- A dictionary as a record. -/
def recordOf : Value → Record
  | .mapping es => es.map fun (k, v) => (k.text?.getD k.display, v)
  | _ => []

/-- What a selection answers on the records of a store. -/
def aggregate (r : Repository) (records : List Record) : Selection → Except Error (List Value)
  | .equal key v => do keepWhere key v (← r.hydrateAll records)
  | .stages stages => do
    let selected ← Pipeline.run (records.map Record.toValue) stages
    r.hydrateAll (selected.map recordOf)

end Repository

/-- What a write works on; `σ` is the store. -/
structure Writing (σ : Type) where
  world : World
  repository : Repository
  entity : Value
  store : σ

/-- A write that may fail. What it changed before it failed stays changed. -/
abbrev Write (σ : Type) := ExceptT Error (StateM (Writing σ))

namespace Write

variable {σ α : Type}

def ofExcept (result : Except Error α) : Write σ α := ExceptT.mk (pure result)

def fail (e : Error) : Write σ α := ofExcept (.error e)

/-- Runs an action in the world of a write. -/
def act (action : Action α) : Write σ α :=
  ExceptT.mk do
    let w ← get
    let (result, world) := action.runIn w.world
    set { w with world }
    return result

/-- The record of the instance that is written. -/
def record : Write σ Record := do
  let w ← get
  act (w.repository.descriptor.record w.entity)

/-- The text under which the instance is stored. -/
def entityId : Write σ String := do
  let w ← get
  ofExcept (w.repository.entityId w.entity)

/-- Replaces the store. -/
def keep (store : σ) : Write σ Unit := modify fun w => { w with store }

/-- Whether the instance has a method of a name. -/
def canCall (entity : Value) (name : String) : Bool :=
  match entity with
  | .object o => o.canCall name
  | _ => false

/-- Calls a method of the instance. -/
def call (name : String) : Write σ Reply := do
  let w ← get
  match w.entity with
  | .object o => do
    let (o, reply) ← act (o.callMethod name)
    modify fun w => { w with entity := .object o }
    return reply
  | _ => fail (.failure .attribute)

/-- Calls a method if the instance has it. -/
def callIfAny (name : String) : Write σ (Option Reply) := do
  let w ← get
  if canCall w.entity name then return some (← call name) else return none

/-- Sets the time of change back. -/
def restore (previous : Value) (w : Writing σ) : Writing σ :=
  match w.entity with
  | .object o =>
    if (o.attribute? "updated_at").isSome then { w with entity := .object (o.set "updated_at" previous) } else w
  | _ => w

/-- Runs a change with the instance touched. When the change fails, the time of change is what it was. -/
def touched (change : Write σ α) : Write σ α := do
  let w ← get
  if canCall w.entity Hook.touch.name then do
    let previous := w.entity.attributeOrNull "updated_at"
    let _ ← call Hook.touch.name
    tryCatch change fun e => do
      modify (restore previous)
      fail e
  else change

/-- Hands events to the publisher; without one they are dropped. -/
def publish (events : List (Event Value)) : Write σ Unit := do
  let w ← get
  match w.repository.publisher with
  | none => return ()
  | some .failing => fail (.failure .program)
  | some .accepting =>
    set { w with repository := { w.repository with published := w.repository.published ++ [events] } }

/-- What follows a successful write: the hook of the instance, then its pending events. -/
def finish (hook : Option Hook) : Write σ Unit := do
  if let some h := hook then
    let _ ← callIfAny h.name
  match ← callIfAny Hook.pullEvents.name with
  | some (.events (e :: es)) => publish (e :: es)
  | _ => return ()

end Write

end Trischema
