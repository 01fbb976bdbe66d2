import Trischema.Object.Construction
import Trischema.Registry.Merging

/-!
Models: the classes that a model author defines, in order. Each knows what it offers under names and, where
it has finitely many, its members.
-/

namespace Trischema

/-- A class of a model. `attributes` are the ones of the class itself, without those that it inherits. -/
structure ModelClass where
  cls : Class Value
  attributes : List (String × Attribute Value) := []
  members : List (String × Value) := []

abbrev Model := List ModelClass

namespace Model

/-- The class that was defined last among those that are written so. -/
def find? (m : Model) (text : String) : Option ModelClass := m.reverse.find? (·.cls.name.text == text)

/-- The definition of a class. -/
def definition? (m : Model) (name : ClassName) : Option ModelClass :=
  List.find? (·.cls.name == name) m

/-- What a class offers by itself, its members included. -/
def offered (m : Model) (name : ClassName) : List (String × Attribute Value) :=
  match name with
  | .builtin b => b.hooks.map fun h => (h.name, .hook h)
  | .defined .. =>
    match m.definition? name with
    | some c => c.members.map (fun (k, v) => (k, .constant v)) ++ c.attributes
    | none => []

/-- What a class offers its instances, nearest class first. -/
def shared (m : Model) (c : Class Value) : List (String × Attribute Value) := c.lineage.flatMap m.offered

/-- Defines a class below some bases. The order of the bases must agree with theirs. -/
def define? (m : Model) (name : String) (bases : List ClassName) (attributes : List (String × Attribute Value)) :
    Option Model := do
  let c : Class Value := ⟨.defined name m.length (← ClassName.linearize? bases), none⟩
  let constants := if c.isA .enumeration || c.isA .constantSet then some [] else none
  return m ++ [{ cls := { c with constants }, attributes }]

/-- The members of the class itself, in the order of their definition. -/
def members (m : Model) (c : Class Value) : List Value :=
  ((m.definition? c.name).map fun c => c.members.map (·.2)).getD []

/-- The member of a class under a name, or of the nearest class that it inherits from. -/
def member? (m : Model) (c : Class Value) (name : String) : Option Value :=
  match (m.shared c).lookup name with
  | some (.constant v) => some v
  | _ => none

/-- Makes a member of an enumeration from its number and name. -/
def makeMember (m : Model) (c : Class Value) (id name : Value) : Action Value := do
  return .object (← c.construct (m.shared c) [("id", id), ("name", name)])

/-- Makes the members of an enumeration in order. -/
def makeMembers (m : Model) (c : Class Value) : List (String × Value × Value) → Action (List (String × Value))
  | [] => return []
  | (key, id, name) :: rest => do
    let v ← m.makeMember c id name
    return (key, v) :: (← makeMembers m c rest)

/-- Gives the class that was defined last its members; the values that stores keep of them are their
names. -/
def withMembers (m : Model) (members : List (String × Value)) : Model :=
  match m.getLast? with
  | none => m
  | some c =>
    let names := members.map fun (_, v) => v.attributeOrNull "name"
    m.dropLast ++ [{ c with members, cls := { c.cls with constants := some names } }]

/-- Defines an enumeration with its members. -/
def defineEnumeration (m : Model) (name : String) (bases : List ClassName)
    (attributes : List (String × Attribute Value)) (members : List (String × Value × Value)) :
    Action Model := do
  match m.define? name bases attributes with
  | none => Action.fail (.failure .kind)
  | some m =>
    match m.find? name with
    | some c => return m.withMembers (← m.makeMembers c.cls members)
    | none => return m

/-- The classes that members of a constant set belong to. -/
def mixinLineage : Mixin → List ClassName
  | .plain => [.builtin .constantSet, .builtin .object]
  | .integer => [.builtin .integer, .builtin .constantSet, .builtin .object]
  | .text => [.builtin .text, .builtin .constantSet, .builtin .object]

/-- A value as members of a constant set have it: theirs is a number or a text where they are one. -/
def constantValue (mixin : Mixin) (v : Value) : Value :=
  match mixin, v.number? with
  | .text, _ => .str v.display
  | .integer, some (.int n) => .int n
  | _, _ => v

/-- The members of a constant set under their names. A later name of an equal value stands for the first
member that has it. -/
def constants (cls : ClassName) (mixin : Mixin) (given : List (String × Value)) : List (String × Value) :=
  given.foldl (fun made (name, v) =>
    let v := constantValue mixin v
    let known := made.find? fun (_, w) => (w.attributeOrNull "value").same v
    made ++ [(name, match known with
      | some (_, w) => w
      | none => .member ⟨.defined cls, mixin, name, v⟩)]) []

/-- The stored values of the members of a constant set, without repetition. -/
def constantValues (members : List (String × Value)) : List Value :=
  (members.filter fun (name, v) => (v.attributeOrNull "name").same (.str name)).map fun (_, v) =>
    v.attributeOrNull "value"

/-- Defines a constant set. -/
def defineConstants (m : Model) (name : String) (mixin : Mixin) (given : List (String × Value)) : Model :=
  let cls := ClassName.defined name m.length (mixinLineage mixin)
  let members := constants cls mixin given
  m ++ [{ cls := ⟨cls, some (constantValues members)⟩, members }]

/-- The members of an enumeration that are named so. -/
def fromName (m : Model) (c : Class Value) (name : Value) : Except Error Value :=
  if !c.isA .enumeration then .error (.failure .attribute)
  else
    match (m.members c).find? fun v => (v.attributeOrNull "name").same name with
    | some v => .ok v
    | none => .error (.value (.notAMember name.display c.name.text))

/-- All members of an enumeration. -/
def allMembers (m : Model) (c : Class Value) : Except Error (List Value) :=
  if c.isA .enumeration then .ok (m.members c) else .error (.failure .attribute)

end Model

/-- What a type is in the domain: whether it is a class, an entity or one that may be stored inline, and
which properties it brings by being a domain base. -/
structure DomainRole where
  isPlain : Bool
  isRoot : Bool
  isEmbeddable : Bool
  properties : List String
  deriving DecidableEq, Repr

namespace DomainRole

/-- The role of a type. One that may not be a key has none. -/
def ofType (t : TypeExpr Value) : Except Error DomainRole :=
  match t with
  | .cls c => .ok ⟨true, c.isA .entity, c.isDomainEmbeddable, c.name.domainProperties.map (·.1)⟩
  | t => if t.hashable then .ok ⟨false, false, false, []⟩ else .error (.failure .kind)

end DomainRole

end Trischema
