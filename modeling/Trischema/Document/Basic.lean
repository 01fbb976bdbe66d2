import Trischema.Property.Basic
import Trischema.Value.Keyed

/-!
Document schemas: the nested shape of the documents of one class. Embedded classes are nested schemas,
relationships are arrays of references, and past the depth limit a schema is a placeholder without
fields.
-/

namespace Trischema

namespace Scalar

/-- The type of a scalar in a document store. -/
def bsonType : Scalar → String
  | string => "string"
  | integer => "long"
  | float => "double"
  | boolean => "bool"
  | datetime | date => "date"
  | bytes => "binData"
  | object => "object"

end Scalar

/-- What a field holds. -/
inductive FieldShape (σ : Type)
  | scalar (s : Scalar)
  | scalars (s : Scalar)
  | nested (schema : σ)
  | nestedArray (schema : σ)
  /-- identifiers of instances of a target -/
  | references (target : String)

/-- A field of a document schema; `σ` stands for the schemas nested in it. -/
structure Field (σ : Type) where
  name : String
  shape : FieldShape σ
  enum : Option (List Value)
  unique : Option Bool
  optional : Option Bool
  default : Option Value
  isIdentifier : Bool

/-- The schema of the documents of a class. -/
structure Document where
  /-- the entity name; the schema of no class has none -/
  name : Option String
  fields : List (Field Document)
  hasId : Bool
  idField : String
  /-- composite keys, by field names -/
  together : List (List String)
  /-- whether the schema stands for a class past the depth limit -/
  isPlaceholder : Bool

namespace FieldShape

variable {σ : Type}

def nested? : FieldShape σ → Option σ
  | nested s | nestedArray s => some s
  | _ => none

/-- The type of the field in a document store. -/
def typeText : FieldShape σ → String
  | scalar s => s.bsonType
  | nested _ => "object"
  | scalars _ | nestedArray _ | references _ => "array"

/-- The type of the elements, for arrays of scalars and of references. -/
def itemsText? : FieldShape σ → Option String
  | scalars s => some s.bsonType
  | references _ => some "string"
  | _ => none

def target? : FieldShape σ → Option String
  | references t => some t
  | _ => none

end FieldShape

namespace Field

variable {σ : Type}

/-- Whether a document must have the field: identifiers always, references never, and other fields when
they are neither optional nor have a default. -/
def isRequired (f : Field σ) : Bool :=
  f.isIdentifier || (f.shape.target?.isNone && f.optional != some true && f.default.isNone)

end Field

namespace Document

/-- The schema of no class. -/
def empty (idField : String) : Document := ⟨none, [], false, idField, [], false⟩

/-- What stands for a class past the depth limit. -/
def placeholder (name idField : String) : Document := ⟨some name, [], false, idField, [], true⟩

def isEmpty (d : Document) : Bool := d.fields.isEmpty

def fieldNames (d : Document) : List String := d.fields.map (·.name)

def field? (d : Document) (name : String) : Option (Field Document) := d.fields.find? (·.name == name)

mutual

/-- The export of a schema. -/
def toRecord : Document → Value
  | ⟨name, fields, hasId, idField, together, isPlaceholder⟩ =>
    .record (
      [("name", .ofText? name), ("has_id", .bool hasId), ("fields", .keyed (fieldRecords fields))]
        ++ (if hasId then [("id_field", .str idField)] else [])
        ++ Descriptor.togetherEntry together
        ++ (if isPlaceholder then [("placeholder", .str depthLimitMark)] else []))

/-- The exports of fields under their names. -/
def fieldRecords : List (Field Document) → List (String × Value)
  | [] => []
  | ⟨name, shape, enum, unique, optional, default, isIdentifier⟩ :: fields =>
    (name, .record (
      [("type", .str shape.typeText)]
        ++ optionalEntry "items" .str shape.itemsText?
        ++ (match shape with
            | .nested s => [("schema", s.toRecord)]
            | .nestedArray s => [("schema", s.toRecord)]
            | _ => [])
        ++ optionalEntry "enum" .list enum
        ++ optionalEntry "unique" .bool unique
        ++ optionalEntry "optional" .bool optional
        ++ optionalEntry "default" Value.rendered default
        ++ flagEntry "is_identifier" isIdentifier
        ++ optionalEntry "ref" .str shape.target?)) :: fieldRecords fields

end

/-- An index over one or several fields. -/
def indexOf (names : List String) : Value :=
  .record [("keys", .keyed (names.map fun n => (n, .int 1))), ("unique", .bool true),
    ("name", .str ("_".intercalate (names.map (· ++ "_1"))))]

/-- The unique keys of a schema that need an index of their own; the store makes the one for the
identifier. -/
def indexKeys (d : Document) : List (List String) :=
  (d.fields.filter fun f => f.unique.getD false && !f.isIdentifier).map (fun f => [f.name]) ++ d.together

/-- The unique indexes of the documents of a class. -/
def indexes (d : Document) : List Value := d.indexKeys.map indexOf

end Document

end Trischema
