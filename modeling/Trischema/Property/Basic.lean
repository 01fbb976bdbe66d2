import Trischema.Classification
import Trischema.Relationship.Building

/-!
Properties and descriptors. `Options` are what registrations say about a property, each part present or
not; a `Property` is the merged result with its classification, and a `Descriptor` lists the properties
of a class from base to derived.
-/

namespace Trischema

/-- What registrations say about one property. -/
structure Options where
  type : Option (TypeExpr Value) := none
  unique : Option Bool := none
  optional : Option Bool := none
  isIdentifier : Option Bool := none
  enum : Option (List Value) := none
  default : Option Value := none
  relationship : Option (Relationship Value) := none
  /-- contributed by a domain base and not declared -/
  synthetic : Bool := false

instance : Inhabited Options := ⟨{}⟩

namespace Options

/-- The options of `later` where it has them, else those of `earlier`. -/
def overlay (later earlier : Options) : Options where
  type := later.type <|> earlier.type
  unique := later.unique <|> earlier.unique
  optional := later.optional <|> earlier.optional
  isIdentifier := later.isIdentifier <|> earlier.isIdentifier
  enum := later.enum <|> earlier.enum
  default := later.default <|> earlier.default
  relationship := later.relationship <|> earlier.relationship
  synthetic := later.synthetic || earlier.synthetic

/-- As `overlay`, for options that were declared: the result is no longer synthetic. -/
def declaredOver (later earlier : Options) : Options := { later.overlay earlier with synthetic := false }

def identifies (o : Options) : Bool := o.isIdentifier.getD false

end Options

/-- Options under keys, in the order in which the keys came. -/
abbrev OptionTable := List (String × Options)

namespace OptionTable

/-- Combines new options with those under a key; a new key goes last. -/
def upsert (combine : Options → Options → Options) (table : OptionTable) (key : String) (o : Options) :
    OptionTable :=
  match table with
  | [] => [(key, combine o {})]
  | (k, p) :: rest => if k = key then (k, combine o p) :: rest else (k, p) :: upsert combine rest key o

end OptionTable

/-- The storage configuration of one property. -/
structure Property where
  key : String
  type : TypeExpr Value := .absent
  unique : Option Bool := none
  optional : Option Bool := none
  isIdentifier : Bool := false
  enum : Option (List Value) := none
  default : Option Value := none
  relationship : Option (Relationship Value) := none
  classification : Option Classification := none
  synthetic : Bool := false

namespace Value

/-- The name of a function or of another value that can be called. -/
def callableName? : Value → Option String
  | callable (.factory name _) => some name
  | callable .generateId => some "generate_id"
  | callable (.resolver _) | callable (.failing _) => some "<lambda>"
  | callable (.anonymous _) => some "partial"
  | type t => if t.isCallable then some t.ownName else none
  | _ => none

/-- A default value as it is exported: functions by name, members by their value. -/
def rendered (v : Value) : Value :=
  match v.callableName?, v with
  | some name, _ => str ("factory:" ++ name)
  | none, member m => m.value
  | none, v => v

end Value

/-- The mark of an artifact that was cut off at the depth limit. -/
def depthLimitMark : String := "depth_limit"

/-- An entry of an export that is left out when there is nothing to say. -/
def optionalEntry {α : Type} (name : String) (toValue : α → Value) : Option α → List (String × Value)
  | some a => [(name, toValue a)]
  | none => []

/-- An entry of an export that is there only when a flag is set. -/
def flagEntry (name : String) (b : Bool) : List (String × Value) :=
  if b then [(name, .bool true)] else []

namespace Relationship

/-- The summary of a relationship in a listing of properties; `target` is the name of a resolved one. -/
def summary (r : Relationship Value) (target : Option String) : Except Error Value := do
  let direction ← r.direction.toValue Direction.text
  let cardinality ← r.cardinalityValue
  return .record ([("edge_type", .str r.edgeType), ("direction", direction), ("cardinality", cardinality),
    ("owner", .bool r.owner)] ++ optionalEntry "target" .str target)

end Relationship

namespace Property

/-- Whether the property is compiled with a uniqueness constraint. -/
def isUnique (p : Property) : Bool := p.unique.getD false || p.isIdentifier

def hasDefault (p : Property) : Bool := p.default.isSome

def kind? (p : Property) : Option StorageKind := p.classification.map Classification.kind

/-- Whether the classification of a property is a relationship. -/
def isRelationship (p : Property) : Bool :=
  match p.classification with
  | some (.relationship _) => true
  | _ => false

/-- The export of a property. -/
def toRecord (p : Property) (target : Option String) : Except Error Value := do
  let relationship ← match p.relationship with
    | some r => (r.summary target).map fun v => [("relationship", v)]
    | none => Except.ok []
  return .record (
    [("key", .str p.key), ("type", .str p.type.label)]
      ++ optionalEntry "kind" (fun k => .str (StorageKind.text k)) p.kind?
      ++ optionalEntry "unique" .bool p.unique
      ++ optionalEntry "optional" .bool p.optional
      ++ flagEntry "is_identifier" p.isIdentifier
      ++ optionalEntry "enum" .list p.enum
      ++ optionalEntry "default" Value.rendered p.default
      ++ relationship)

/-- The fields of a property besides its key. -/
def fieldNames : List String :=
  ["type", "unique", "optional", "is_identifier", "enum_values", "default", "relationship", "classification",
    "synthetic"]

/-- A property given by its fields, without a classification. -/
def ofFields (key : String) (given : Given) : Except Error Property :=
  let flag (name : String) : Option Bool :=
    match given.lookup name with
    | some (.bool b) => some b
    | _ => none
  if !given.all fun (k, _) => fieldNames.contains k then .error (.failure .kind)
  else if key.isEmpty then .error (.definitionAnywhere .emptyKey)
  else .ok {
    key
    type := ((given.lookup "type").map TypeExpr.ofValue).getD .absent
    unique := flag "unique"
    optional := flag "optional"
    isIdentifier := (flag "is_identifier").getD false
    enum := match given.lookup "enum_values" with
      | some (.list vs) | some (.tuple vs) => some vs
      | _ => none
    default := given.lookup "default"
    relationship := match given.lookup "relationship" with
      | some (.relationship r) => some r
      | _ => none
    synthetic := (flag "synthetic").getD false }

end Property

/-- The merged properties of a class and its ancestors, from base to derived. -/
structure Descriptor where
  cls : Class Value
  name : String
  properties : List Property
  embedded : Bool
  together : List (List String)

namespace Descriptor

def get? (d : Descriptor) (key : String) : Option Property := d.properties.find? (·.key == key)

def keys (d : Descriptor) : List String := d.properties.map (·.key)

def identifier? (d : Descriptor) : Option Property := d.properties.find? (·.isIdentifier)

/-- The unique properties, without the identifier. -/
def uniqueProperties (d : Descriptor) : List Property :=
  d.properties.filter fun p => p.unique.getD false && !p.isIdentifier

def relationships (d : Descriptor) : List Property := d.properties.filter (·.relationship.isSome)

/-- The relationships of a class with their keys. -/
def links (d : Descriptor) : List (String × Relationship Value) :=
  (d.properties.filter (·.isRelationship)).filterMap fun p => p.relationship.map fun rel => (p.key, rel)

/-- Composite keys as an entry of an export, when there are any. -/
def togetherEntry (groups : List (List String)) : List (String × Value) :=
  if groups.isEmpty then [] else [("unique_together", .list (groups.map .texts))]

/-- An export of a class from the exports of its properties. -/
def recordOf (d : Descriptor) (properties : List Value) : Value :=
  .record ([("name", .str d.name), ("embedded", .bool d.embedded), ("properties", .list properties)]
    ++ togetherEntry d.together)

/-- The export of a descriptor. -/
def toRecord (d : Descriptor) : Except Error Value := do
  return d.recordOf (← d.properties.mapM (·.toRecord none))

/-- A descriptor of properties that are nothing but keys; the keys must differ and not be empty. -/
def ofKeys (cls : Class Value) (name : String) (keys : List String) : Except Error Descriptor :=
  if keys.any String.isEmpty then .error (.definitionAnywhere .emptyKey)
  else if keys.eraseDups.length ≠ keys.length then
    .error (.definition (.duplicateKey name) ⟨some name, none⟩)
  else .ok ⟨cls, name, keys.map fun k => { key := k }, false, []⟩

end Descriptor

end Trischema
