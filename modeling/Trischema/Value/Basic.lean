import Trischema.Number.Binary64
import Trischema.Calendar.Basic
import Trischema.Relationship.Basic

/-!
The values that a model author hands to the library and that stores keep: plain data, containers,
identifiers, members of constant sets, instances of classes, types and functions.
-/

namespace Trischema

/-- What the members of a constant set are besides being its members. -/
inductive Mixin
  | plain | integer | text
  deriving DecidableEq, Repr

/-- The constant set that a member is of: one that a model defines, or one of the library's own. -/
inductive ConstantSet
  | defined (name : ClassName)
  | direction
  | cardinality
  deriving DecidableEq, Repr

/-- The text that a constant set is written as. -/
def ConstantSet.text : ConstantSet → String
  | defined name => name.text
  | direction => "Direction"
  | cardinality => "Cardinality"

/-- A member of a constant set. -/
structure Member (α : Type) where
  owner : ConstantSet
  mixin : Mixin
  name : String
  value : α

/-- The text of the class of a member. -/
def Member.cls {α : Type} (m : Member α) : String := m.owner.text

/-- The methods that the domain bases bring with them. -/
inductive Hook
  | addEvent | pullEvents | create | touch | delete | atomicValues | members | fromName
  deriving DecidableEq, Repr

/-- What a class offers its instances under a name: a constant, a method that counts its calls, or a
method of a domain base. -/
inductive Attribute (α : Type)
  | constant (v : α)
  | counting
  | hook (h : Hook)

/-- Something that happened to an entity. -/
structure Event (α : Type) where
  name : α
  entityName : String
  entityId : α
  payload : List (String × α)
  occurredAt : Moment

/-- An instance of a class. `identity` tells it from every other instance; `shared` is what its class
offers, `pending` are the events that were recorded and not yet taken. -/
structure Object (α : Type) where
  identity : Nat
  cls : Class α
  attrs : List (String × α)
  shared : List (String × Attribute α)
  pending : List (Event α)

/-- Functions without arguments. -/
inductive Callable (α : Type)
  /-- a named function with a fixed result -/
  | factory (name : String) (result : α)
  /-- a function without a name -/
  | anonymous (result : α)
  /-- a function that answers with a type -/
  | resolver (result : α)
  | failing (reason : String)
  /-- the function that makes identifiers -/
  | generateId

inductive Value
  | null
  | bool (b : Bool)
  | int (n : Int)
  | float (x : Binary64)
  | complex (re im : Binary64)
  | str (s : String)
  | bytes (bs : List UInt8)
  | date (d : Date)
  | moment (m : Moment)
  | list (xs : List Value)
  | tuple (xs : List Value)
  | set (xs : List Value)
  | mapping (entries : List (Value × Value))
  | identifier (text : String)
  | member (m : Member Value)
  | object (o : Object Value)
  | type (t : TypeExpr Value)
  | callable (c : Callable Value)
  | relationship (r : Relationship Value)

instance : Inhabited Value := ⟨.null⟩

/-- A direction as the member of its constant set. -/
def Direction.member (d : Direction) : Member Value := ⟨.direction, .plain, d.text, .str d.text⟩

/-- A cardinality as the member of its constant set. -/
def Cardinality.member (c : Cardinality) : Member Value := ⟨.cardinality, .plain, c.name, .str c.text⟩

/-- Options as they are given: values under names. -/
abbrev Given := List (String × Value)

namespace Value

def isNull : Value → Bool
  | null => true
  | _ => false

/-- A record: a dictionary whose keys are texts. -/
def record (entries : List (String × Value)) : Value :=
  mapping (entries.map fun (k, v) => (str k, v))

def texts (xs : List String) : Value := list (xs.map str)

/-- The text, or `null` where there is none. -/
def ofText? : Option String → Value
  | some s => str s
  | none => null

end Value

namespace TypeExpr

mutual

/-- The type expression that a value stands for: nothing, a type, or a list of those. -/
def ofValue : Value → TypeExpr Value
  | .null => absent
  | .type t => t
  | .list xs => shorthand (ofValues xs)
  | v => object v

def ofValues : List Value → List (TypeExpr Value)
  | [] => []
  | x :: xs => ofValue x :: ofValues xs

end

mutual

/-- The value that a type expression is. -/
def toValue : TypeExpr Value → Value
  | absent => .null
  | object v => v
  | shorthand ts => .list (toValues ts)
  | t => .type t

def toValues : List (TypeExpr Value) → List Value
  | [] => []
  | t :: ts => toValue t :: toValues ts

end

end TypeExpr

namespace Cascade

def toValue : Cascade → Value
  | flag b => .bool b
  | operations names => .texts names

end Cascade

end Trischema
