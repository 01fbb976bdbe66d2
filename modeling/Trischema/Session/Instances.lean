import Trischema.Session.Basic
import Trischema.Object.Arguments
import Trischema.Object.Calling

/-!
The instances of a session: making them, changing them and calling their methods. A changed instance is
changed wherever the session holds it.
-/

namespace Trischema

namespace Class

/-- Whether instances of a class are told apart and have attributes. -/
def makesObjects (c : Class Value) : Bool :=
  match c.name with
  | .defined .. => !c.isA .constantSet
  | .builtin b => b == .object || b == .entity || b == .valueObject || b == .enumeration

end Class

namespace Value

/-- Sets an attribute of an instance; other values take none. -/
def setAttribute (v : Value) (name : String) (new : Value) : Except Error Value :=
  match v, new with
  | object o, _ => if o.cls.isExactly .object then .error (.failure .attribute) else .ok (object (o.set name new))
  | identifier _, str s => if name = "value" then .ok (identifier s) else .error (.failure .attribute)
  | _, _ => .error (.failure .attribute)

/-- Adds a value to the end of a list. -/
def append (v new : Value) : Except Error Value :=
  match v with
  | list xs => .ok (list (xs ++ [new]))
  | _ => .error (.failure .attribute)

/-- Sets an entry of a dictionary. -/
def putEntry (v key new : Value) : Except Error Value :=
  match v with
  | mapping es => if key.hashable then .ok (mapping (setEntry es key new)) else .error (.failure .kind)
  | _ => .error (.failure .kind)

end Value

namespace Object

/-- Adds a value to the list that stands under a name, be it the instance's own or a shared one. -/
def appendTo (o : Object Value) (name : String) (new : Value) : Except Error (Object Value) := do
  match o.attrs.lookup name, o.shared.lookup name with
  | some v, _ => return o.set name (← v.append new)
  | none, some (.constant v) => return { o with shared := setNamed o.shared name (.constant (← v.append new)) }
  | none, _ => .error (.failure .attribute)

end Object

namespace Step

/-- Makes what a type makes from named arguments. -/
def make (t : TypeExpr Value) (given : Given) : Step Value := do
  match t with
  | .cls c =>
    if c.makesObjects then return .object (← act (c.construct ((← get).model.shared c) given))
    else if c.isExactly .identifier then do
      let values ← ofExcept (Arguments.bind ⟨[], given⟩ [.optional "value"])
      act (Value.makeIdentifier (values.headD .null))
    else if given.isEmpty then act c.instantiate
    else fail (.failure .kind)
  | t => if given.isEmpty then act t.instantiate else fail (.failure .kind)

/-- Sets an attribute of what is held under a name. -/
def assign (name key : String) (v : Value) : Step Unit := do
  match ← ofExcept ((← held name).setAttribute key v) with
  | .object o => modify (·.renew o)
  | new => modify (·.hold name new)

/-- Adds a value to a list of what is held under a name. -/
def push (name key : String) (v : Value) : Step Unit := do
  match ← held name with
  | .object o => do
    let o ← ofExcept (o.appendTo key v)
    modify (·.renew o)
  | _ => fail (.failure .attribute)

/-- Sets an entry of the dictionary that is held under a name. -/
def put (name : String) (key v : Value) : Step Unit := do
  let new ← ofExcept ((← held name).putEntry key v)
  modify (·.hold name new)

/-- Calls a method of a class that needs no instance. -/
def callShared (c : Class Value) (h : Hook) (arguments : Arguments) : Step Reply := do
  let m := (← get).model
  match h with
  | .members => do
    let _ ← ofExcept (arguments.bind [])
    return .value (.list (← ofExcept (m.allMembers c)))
  | .fromName => do
    let values ← ofExcept (arguments.bind [.required "name"])
    return .value (← ofExcept (m.fromName c (values.headD .null)))
  | _ => fail (.failure .kind)

/-- Records an event with what is known about it. -/
def recordEvent (o : Object Value) (arguments : Arguments) : Step Reply := do
  let (name, payload) ← match arguments.positional, arguments.named.lookup "name" with
    | [name], none => pure (name, arguments.named)
    | [], some name => pure (name, arguments.named.filter fun (k, _) => k != "name")
    | _, _ => fail (.failure .kind)
  let o ← act (o.addEvent name payload)
  modify (·.renew o)
  return .value .null

/-- The texts that every value can be asked for. -/
def describe (v : Value) (method : String) (arguments : Arguments) : Step Reply :=
  let text? := match method with
    | "__repr__" => some v.listing
    | "__str__" => some v.display
    | _ => none
  match text? with
  | some s => if arguments.isEmpty then return .value (.str s) else fail (.failure .kind)
  | none => fail (.failure .attribute)

/-- Calls a method of an instance. -/
def callObject (o : Object Value) (method : String) (arguments : Arguments) : Step Reply := do
  match o.attribute? method with
  | none => describe (.object o) method arguments
  | some (.hook .addEvent) => recordEvent o arguments
  | some (.hook .members) => callShared o.cls .members arguments
  | some (.hook .fromName) => callShared o.cls .fromName arguments
  | some _ =>
    if !arguments.isEmpty then fail (.failure .kind)
    let (o, reply) ← act (o.callMethod method)
    modify (·.renew o)
    return reply

/-- Calls a method of the class of identifiers. -/
def callIdentifierClass (method : String) (arguments : Arguments) : Step (Option Reply) := do
  match method with
  | "generate" => do
    let _ ← ofExcept (arguments.bind [])
    return some (.value (← act (Value.makeIdentifier .null)))
  | "parse" => do
    let values ← ofExcept (arguments.bind [.required "value"])
    return some (.value (← ofExcept (values.headD .null).parseIdentifier))
  | _ => return none

/-- Calls a method of a class. One that needs an instance is refused. -/
def callClass (c : Class Value) (method : String) (arguments : Arguments) : Step Reply := do
  if c.isExactly .identifier then
    if let some reply ← callIdentifierClass method arguments then return reply
  match ((← get).model.shared c).lookup method with
  | some (.hook h) => callShared c h arguments
  | some (.constant v) =>
    if !arguments.isEmpty then fail (.failure .kind)
    return .value (← act v.call)
  | some .counting => fail (.failure .kind)
  | none => if method = "__repr__" || method = "__str__" then fail (.failure .kind) else fail (.failure .attribute)

/-- Calls a method of a value. -/
def call (v : Value) (method : String) (arguments : Arguments) : Step Reply := do
  match v with
  | .object o => callObject o method arguments
  | .type (.cls c) => callClass c method arguments
  | .identifier _ =>
    match ← callIdentifierClass method arguments with
    | some reply => return reply
    | none => if method = "value" then fail (.failure .kind) else describe v method arguments
  | .member _ =>
    if method = "value" || method = "name" then fail (.failure .kind) else describe v method arguments
  | v => describe v method arguments

end Step

end Trischema
