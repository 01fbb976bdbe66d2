import Trischema.Document.Basic

/-!
Validators: the rules that a document store checks before it takes a document. A schema gives one
validator, in which a reference may be a list, a single identifier or unset.
-/

namespace Trischema

/-- The rules for one value: its types, the values allowed, the rules for elements, and for the fields of
an object with the names that must be there. -/
structure Validator where
  types : List String
  enum : Option (List Value) := none
  items : List Validator := []
  properties : Option (List (String × Validator)) := none
  required : List String := []

namespace Validator

/-- Allows null besides the types of a validator. -/
def orNull (v : Validator) : Validator := { v with types := v.types ++ ["null"] }

/-- The rules for a scalar. -/
def scalar (s : Scalar) (enum : Option (List Value)) : Validator := { types := [s.bsonType], enum }

/-- The rules for an array of one kind of element. -/
def array (items : Validator) : Validator := { types := ["array"], items := [items] }

/-- The rules for references. -/
def references : Validator :=
  { types := ["array", "string", "null"], items := [{ types := ["string"] }] }

/-- Types as they are written: one by its name, several as a list. -/
def typesValue : List String → Value
  | [t] => .str t
  | ts => .texts ts

mutual

/-- A validator as a document store reads it. -/
def toRecord : Validator → Value
  | ⟨types, enum, items, properties, required⟩ =>
    .record ([("bsonType", typesValue types)]
      ++ itemEntries items
      ++ optionalEntry "enum" .list enum
      ++ (match properties with
          | some ps => [("properties", .keyed (propertyRecords ps))]
          | none => [])
      ++ (if required.isEmpty then [] else [("required", .texts required)]))

def itemEntries : List Validator → List (String × Value)
  | [] => []
  | v :: _ => [("items", v.toRecord)]

def propertyRecords : List (String × Validator) → List (String × Value)
  | [] => []
  | (name, v) :: ps => (name, v.toRecord) :: propertyRecords ps

end

end Validator

namespace Document

mutual

/-- The rules for the documents of a schema. -/
def validator : Document → Validator
  | ⟨_, fields, _, _, _, _⟩ =>
    { types := ["object"]
      properties := some (fieldValidators fields)
      required := (fields.filter (·.isRequired)).map (·.name) }

/-- The rules for fields under their names. -/
def fieldValidators : List (Field Document) → List (String × Validator)
  | [] => []
  | ⟨name, shape, enum, _, optional, _, _⟩ :: fields =>
    let base := match shape with
      | .scalar s => Validator.scalar s enum
      | .scalars s => Validator.array (Validator.scalar s enum)
      | .nested s => s.validator
      | .nestedArray s => Validator.array s.validator
      | .references _ => Validator.references
    let isReference := shape.target?.isSome
    (name, if optional = some true && !isReference then base.orNull else base) :: fieldValidators fields

end

/-- The validator of a collection as a document store reads it. -/
def toJsonSchema (d : Document) : Value := .record [("$jsonSchema", d.validator.toRecord)]

end Document

end Trischema
