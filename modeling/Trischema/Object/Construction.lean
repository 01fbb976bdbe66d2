import Trischema.Object.Basic
import Trischema.Value.Equality
import Trischema.World

/-!
Making instances. The domain base that is nearest in the lineage decides which arguments a class takes:
an entity gets an identifier, a time of creation and a time of change, a member of an enumeration must be
given id and name, and all other classes take no arguments.
-/

namespace Trischema

namespace Value

/-- Reads an identifier: one stays as it is, a text that is not empty becomes one. -/
def parseIdentifier (v : Value) : Except Error Value :=
  match v, v.text? with
  | identifier s, _ => .ok (identifier s)
  | v, some s => if s.isEmpty then .error (.value (.identifier v)) else .ok (identifier s)
  | v, none => .error (.value (.identifier v))

/-- An identifier of a text, or a new one where there is none. -/
def makeIdentifier (v : Value) : Action Value :=
  match v.text? with
  | some s => if s.isEmpty then newIdentifier else return identifier s
  | none => if v.truthy then return identifier v.display else newIdentifier
where
  newIdentifier : Action Value := return identifier (← Action.newIdentifier)

end Value

namespace Class

/-- Refuses arguments of other names. -/
def checkArguments (given : Given) (allowed : List String) : Action Unit :=
  if given.all fun (k, _) => allowed.contains k then return () else Action.fail (.failure .kind)

/-- The attributes of a new entity. -/
def entityAttributes (given : Given) : Action (List (String × Value)) := do
  checkArguments given ["id", "created_at", "updated_at"]
  let argument (name : String) : Value := (given.lookup name).getD .null
  let id ←
    if (argument "id").truthy then Action.ofExcept (argument "id").parseIdentifier
    else Value.makeIdentifier .null
  let now ← Action.clock
  let created := if (argument "created_at").truthy then argument "created_at" else .moment now
  return [("id", id), ("created_at", created), ("updated_at", argument "updated_at")]

/-- The attributes of a new member of an enumeration. -/
def memberAttributes (given : Given) : Action (List (String × Value)) := do
  checkArguments given ["id", "name"]
  match given.lookup "id", given.lookup "name" with
  | some id, some name => return [("id", id), ("name", name)]
  | _, _ => Action.fail (.failure .kind)

/-- The attributes of a new instance. -/
def initialAttributes (c : Class Value) (given : Given) : Action (List (String × Value)) :=
  match c.nearest? [.entity, .enumeration] with
  | some .entity => entityAttributes given
  | some _ => memberAttributes given
  | none => do
    checkArguments given []
    return []

/-- Makes an instance; `shared` is what the class offers its instances. -/
def construct (c : Class Value) (shared : List (String × Attribute Value)) (given : Given) :
    Action (Object Value) := do
  let attrs ← c.initialAttributes given
  return { identity := ← Action.newIdentity, cls := c, attrs, shared, pending := [] }

end Class

end Trischema
