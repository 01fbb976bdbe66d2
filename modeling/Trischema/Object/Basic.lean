import Trischema.Error
import Trischema.Value.Keyed

/-!
Instances of classes: looking up what they have and what their class shares with them. An instance's own
attributes come before the shared ones, whatever kind those are.
-/

namespace Trischema

namespace Hook

/-- The name under which a domain base offers a method. -/
def name : Hook → String
  | addEvent => "add_event"
  | pullEvents => "pull_events"
  | create => "create"
  | touch => "touch"
  | delete => "delete"
  | atomicValues => "atomic_values"
  | members => "members"
  | fromName => "from_name"

end Hook

namespace Builtin

/-- The methods that instances get from a domain base. -/
def hooks : Builtin → List Hook
  | entity => [.addEvent, .pullEvents, .create, .touch, .delete]
  | valueObject => [.atomicValues]
  | enumeration => [.members, .fromName]
  | _ => []

end Builtin

namespace Object

/-- What stands under a name: the instance's own value, else what its class shares. -/
def attribute? (o : Object Value) (name : String) : Option (Attribute Value) :=
  match o.attrs.lookup name with
  | some v => some (.constant v)
  | none => o.shared.lookup name

/-- The value under a name; a method counts as a function. -/
def value? (o : Object Value) (name : String) : Option Value :=
  (o.attribute? name).map fun
    | .constant v => v
    | .counting | .hook _ => .callable (.factory name .null)

/-- Sets an attribute of the instance itself. -/
def set (o : Object Value) (name : String) (v : Value) : Object Value :=
  { o with attrs := setNamed o.attrs name v }

/-- The attributes that others may see. -/
def visible (o : Object Value) : List (String × Value) := o.attrs.filter fun (k, _) => !k.startsWith "_"

/-- Whether the instance was made as an entity, so that it records events. -/
def recordsEvents (o : Object Value) : Bool := o.cls.nearest? [.entity, .enumeration] = some .entity

end Object

namespace Value

/-- The attribute of a value under a name. -/
def attribute? (v : Value) (name : String) : Option Value :=
  match v with
  | object o => o.value? name
  | identifier s => if name = "value" then some (str s) else none
  | member m => if name = "value" then some m.value else if name = "name" then some (str m.name) else none
  | _ => none

/-- The attribute of a value, or `null` where it has none. -/
def attributeOrNull (v : Value) (name : String) : Value := (v.attribute? name).getD null

/-- The attribute that a value must have. -/
def getAttribute (v : Value) (name : String) : Except Error Value :=
  match v.attribute? name with
  | some a => .ok a
  | none => .error (.failure .attribute)

end Value

end Trischema
