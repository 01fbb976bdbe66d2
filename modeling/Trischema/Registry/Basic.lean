import Trischema.Property.Declaring

/-!
The registry of a model: which classes are registered, under which names, and what was declared about
their properties. A registration is accepted as a whole or leaves the registry as it was; once frozen,
the registry accepts none.
-/

namespace Trischema

/-- What was said about a class as a whole. -/
structure Registration where
  name : Option String := none
  embedded : Option Bool := none
  together : List (List String) := []
  deriving DecidableEq, Repr

instance : Inhabited Registration := ⟨{}⟩

/-- Registered classes and declarations, each in the order of their first registration. -/
structure Registry where
  entities : List (Class Value × Registration) := []
  declarations : List (Class Value × OptionTable) := []
  fingerprint : Option String := none

instance : Inhabited Registry := ⟨{}⟩

/-- Changes what is filed under a class, or files something new at the end. -/
def fileUnder {β : Type} (table : List (Class Value × β)) (c : Class Value) (new : β) (change : β → β) :
    List (Class Value × β) :=
  match table with
  | [] => [(c, change new)]
  | (d, b) :: rest => if d.name = c.name then (d, change b) :: rest else (d, b) :: fileUnder rest c new change

/-- What is filed under the name of a class. -/
def filed? {β : Type} (table : List (Class Value × β)) (name : ClassName) : Option β :=
  (table.find? fun (d, _) => d.name == name).map (·.2)

namespace Registry

def frozen (r : Registry) : Bool := r.fingerprint.isSome

def registration (r : Registry) (c : Class Value) : Registration :=
  (filed? r.entities c.name).getD {}

/-- The declarations of a class itself, without those of its ancestors. -/
def declared (r : Registry) (name : ClassName) : OptionTable := (filed? r.declarations name).getD []

/-- Refuses a change when the registry is frozen. -/
def checkMutable (r : Registry) (attempt : Attempt) : Except Error Unit :=
  if r.frozen then .error (.frozen attempt) else .ok ()

/-- Composite keys as they are given: a list of groups, each a text or a list of texts. A text given for
the list names one key per character. -/
def readTogether (v : Value) : Except Error (List (List String)) := do
  let some groups := v.elements? | .error (.failure .kind)
  groups.mapM fun g =>
    match g.toTexts .uniqueTogether with
    | .ok ss => .ok ss
    | .error fault => .error (.definitionAnywhere fault)

/-- Marks a class as part of the model. What is not said keeps its earlier setting. -/
def registerEntity (r : Registry) (cls : TypeExpr Value) (name : Option String) (embedded : Option Bool)
    (together : Value) : Except Error Registry := do
  let .cls c := cls | .error (.definitionAnywhere (.notAClass cls.listing))
  if name = some "" then .error (.definition .emptyEntityName ⟨some c.name.text, none⟩)
  let groups ← readTogether together
  r.checkMutable (.entity c.name.text)
  return { r with entities := fileUnder r.entities c {} fun old =>
    { name := name <|> old.name
      embedded := embedded <|> old.embedded
      together := if groups.isEmpty then old.together else groups } }

/-- The key of a class that another declaration already made the identifier. -/
def otherIdentifier? (table : OptionTable) (key : String) : Option String :=
  (table.find? fun (k, o) => k != key && o.identifies).map (·.1)

/-- Declares one property of a class over what was declared about it before, with the entries of a dictionary as its
options. -/
def registerEntries (r : Registry) (cls : TypeExpr Value) (key : Value) (es : List (Value × Value)) :
    Except Error Registry := do
  let (c, key, o) ← Options.ofEntries cls key es
  r.checkMutable (.property c.name.text key)
  if o.identifies then
    if let some other := otherIdentifier? (r.declared c.name) key then
      .error (.definition (.secondIdentifier c.name.text other) ⟨some c.name.text, some key⟩)
  return { r with declarations := fileUnder r.declarations c [] fun table => table.upsert .overlay key o }

/-- Declares one property of a class, given by its options. -/
def registerProperty (r : Registry) (cls : TypeExpr Value) (key : Value) (given : Given) : Except Error Registry :=
  r.registerEntries cls key given.entries

/-- Declares a relationship, given by its options. -/
def registerRelationship (r : Registry) (cls : TypeExpr Value) (key : Value) (given : Given) :
    Except Error Registry := do
  let relationship ← Relationship.ofEntries cls.ownName (key.text?.getD key.display) given.entries
  r.registerProperty cls key [("relationship", .relationship relationship)]

/-- Declares many properties, one after another; the ones before a fault stay declared. -/
def registerBulk (r : Registry) (cls : TypeExpr Value) : List (Value × Given) → Registry × Option Error
  | [] => (r, none)
  | (key, given) :: rest =>
    match r.registerProperty cls key given with
    | .ok r => registerBulk r cls rest
    | .error e => (r, some e)

/-- Marks a class as part of the model and declares its properties. -/
def declareEntity (r : Registry) (cls : TypeExpr Value) (name : Option String) (embedded : Option Bool)
    (together : Value) (properties : List (Value × Given)) : Registry × Option Error :=
  match r.registerEntity cls name embedded together with
  | .ok r => r.registerBulk cls properties
  | .error e => (r, some e)

/-- All registered classes: those registered as entities, then those that only declare properties. -/
def classes (r : Registry) : List (Class Value) :=
  let marked := r.entities.map (·.1)
  let names := marked.map (·.name)
  marked ++ (r.declarations.map (·.1)).filter (!names.contains ·.name)

/-- Whether a class was registered in any way. -/
def isRegistered (r : Registry) (c : Class Value) : Bool :=
  (filed? r.entities c.name).isSome || (filed? r.declarations c.name).isSome

/-- The name of a class in the model: the registered one, or its own. -/
def nameOf (r : Registry) (c : Class Value) : String :=
  match (r.registration c).name with
  | some name => name
  | none => c.name.text

/-- The first registered class of a name. -/
def lookup? (r : Registry) (name : String) : Option (Class Value) :=
  r.classes.find? fun c => r.nameOf c == name

/-- Whether instances of a class are stored inline with their owner. -/
def isEmbedded (r : Registry) (c : Class Value) : Bool :=
  match (r.registration c).embedded with
  | some b => b
  | none => c.isA .valueObject || c.isA .enumeration

/-- Whether a class may be the type of an embedded property. -/
def isEmbeddable (r : Registry) (c : Class Value) : Bool := c.isDomainEmbeddable || r.isRegistered c

/-- Whether a type is a class that was registered. -/
def isRegisteredType (r : Registry) (t : TypeExpr Value) : Bool := t.class?.any r.isRegistered

/-- The name of a type in the model; one that may not be a key, or has no name, is refused. -/
def nameOfType (r : Registry) (t : TypeExpr Value) : Except Error String :=
  match t with
  | .cls c => .ok (r.nameOf c)
  | t => if t.hashable then t.requireName else .error (.failure .kind)

/-- Whether instances of a type are stored inline; types that are no classes have no instances. -/
def isEmbeddedType (r : Registry) (t : TypeExpr Value) : Except Error Bool :=
  match t with
  | .cls c => .ok (r.isEmbedded c)
  | _ => .error (.failure .kind)

/-- Whether a type is a class that may be the type of an embedded property. -/
def isEmbeddableType (r : Registry) (t : TypeExpr Value) : Bool := t.class?.any r.isEmbeddable

end Registry

end Trischema
