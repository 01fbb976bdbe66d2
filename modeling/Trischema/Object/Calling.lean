import Trischema.Object.Construction
import Trischema.Relationship.Building

/-!
Calling functions and methods. Functions without arguments make defaults; methods of domain bases record
events, take them, and note when an instance was last changed.
-/

namespace Trischema

namespace Class

/-- What a class makes without arguments. -/
def instantiate (c : Class Value) : Action Value :=
  match c.name with
  | .builtin .text => return .str ""
  | .builtin .integer => return .int 0
  | .builtin .real => return .float Binary64.zero
  | .builtin .boolean => return .bool false
  | .builtin .bytes => return .bytes []
  | .builtin .mapping => return .mapping []
  | .builtin .list => return .list []
  | .builtin .tuple => return .tuple []
  | .builtin .set | .builtin .frozenSet => return .set []
  | .builtin .complex => return .complex Binary64.zero Binary64.zero
  | .builtin .unit => return .null
  | .builtin .identifier => Value.makeIdentifier .null
  | .builtin .moment | .builtin .date | .builtin .any => Action.fail (.failure .kind)
  | _ =>
    if c.isA .constantSet then Action.fail (.failure .kind)
    else return .object (← c.construct [] [])

end Class

namespace TypeExpr

/-- What a type makes without arguments. -/
def instantiate : TypeExpr Value → Action Value
  | cls c => c.instantiate
  | generic .sequence _ => Action.fail (.failure .kind)
  | generic head _ => (Class.ofBuiltin head.origin).instantiate
  | _ => Action.fail (.failure .kind)

end TypeExpr

namespace Value

/-- Calls a value without arguments. -/
def call : Value → Action Value
  | callable c =>
    match c with
    | .factory _ result | .anonymous result | .resolver result => return result
    | .failing _ => Action.fail (.failure .name)
    | .generateId => return str (← Action.newIdentifier)
  | type t => t.instantiate
  | _ => Action.fail (.failure .kind)

/-- A default: made by a function, or the value itself. -/
def produce (v : Value) : Action Value := if v.isCallable then v.call else return v

end Value

/-- What a method answers. -/
inductive Reply
  | value (v : Value)
  | events (es : List (Event Value))
  /-- values that are made one after another -/
  | series (vs : List Value)

namespace Object

/-- Records an event of an instance. -/
def addEvent (o : Object Value) (name : Value) (payload : List (String × Value)) : Action (Object Value) := do
  let id ← Action.ofExcept ((Value.object o).getAttribute "id")
  let entityId ← Action.ofExcept (id.getAttribute "value")
  if !o.recordsEvents then Action.fail (.failure .attribute)
  let event : Event Value := ⟨name, o.cls.name.text, entityId, payload, ← Action.clock⟩
  return { o with pending := o.pending ++ [event] }

/-- Takes the pending events. -/
def pullEvents (o : Object Value) : Action (Object Value × List (Event Value)) :=
  if o.recordsEvents then return ({ o with pending := [] }, o.pending) else Action.fail (.failure .attribute)

/-- Notes the time of a change. -/
def touch (o : Object Value) : Action (Object Value) := do
  return o.set "updated_at" (.moment (← Action.clock))

/-- Records an event through the method that the instance has for it. -/
def record (o : Object Value) (name : String) : Action (Object Value) :=
  match o.attribute? Hook.addEvent.name with
  | some (.hook .addEvent) => o.addEvent (.str name) []
  | some _ => Action.fail (.failure .kind)
  | none => Action.fail (.failure .attribute)

/-- One more than the number of calls so far. -/
def countCall (o : Object Value) : Action (Object Value) :=
  match ((o.value? "calls").getD (.int 0)).number? with
  | some (.int n) => return o.set "calls" (.int (n + 1))
  | some (.float x) => return o.set "calls" (.float x)
  | _ => Action.fail (.failure .kind)

/-- Calls a method without arguments. -/
def callMethod (o : Object Value) (name : String) : Action (Object Value × Reply) :=
  match o.attribute? name with
  | none => Action.fail (.failure .attribute)
  | some (.constant v) => do return (o, .value (← v.call))
  | some .counting => do return (← o.countCall, .value .null)
  | some (.hook h) =>
    match h with
    | .touch => do return (← o.touch, .value .null)
    | .create => do return (← o.record "created", .value .null)
    | .delete => do return (← o.record "deleted", .value .null)
    | .pullEvents => do
      let (o, events) ← o.pullEvents
      return (o, .events events)
    | .atomicValues => return (o, .series (o.attrs.map (·.2)))
    | .addEvent | .members | .fromName => Action.fail (.failure .kind)

/-- Whether something that can be called stands under a name. -/
def canCall (o : Object Value) (name : String) : Bool := (o.value? name).any Value.isCallable

end Object

end Trischema
