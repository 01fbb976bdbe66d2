import Trischema.Document.Basic
import Trischema.Property.Renaming
import Trischema.Registry.Export
import Trischema.Settings

/-!
Compiling classes to document schemas. Every embedded class is expanded one level further down; the
number of levels that are left bounds the expansion, and at none a placeholder stands for the class.
-/

namespace Trischema

namespace Document

/-- The shape of a property. `nest` gives the schema of an embedded class. -/
def shapeOf (r : Registry) (nest : Class Value → Except Error Document) (c : Class Value) (p : Property) :
    Classification → Except Error (FieldShape Document)
  | .relationship rel => (r.resolve c p.key rel).map fun d => .references (r.nameOf d)
  | .array (.embedded d) => (nest d).map .nestedArray
  | .array e => .ok (.scalars (e.scalar?.getD .string))
  | .single (.embedded d) => (nest d).map .nested
  | .single e => .ok (.scalar (e.scalar?.getD .string))

/-- The field of a property. An identifier is unique and made by the library unless it has a default. -/
def fieldOf (r : Registry) (nest : Class Value → Except Error Document) (c : Class Value) (name : String)
    (p : Property) : Except Error (Field Document) := do
  let some k := p.classification | .error (.failure .kind)
  let shape ← shapeOf r nest c p k
  return {
    name
    shape
    enum := k.values?
    unique := if p.isIdentifier then some true else p.unique
    optional := p.optional
    default := if p.isIdentifier then p.default <|> some (.callable .generateId) else p.default
    isIdentifier := p.isIdentifier }

/-- Whether the documents of a class carry its identifier: always at the top, and inside another document
only for entities. -/
def keepsId (d : Descriptor) (embedded : Bool) : Bool :=
  d.identifier?.isSome && (!embedded || d.cls.isA .entity)

/-- The properties that become fields, with their field names. -/
def keptProperties (d : Descriptor) (keepId : Bool) (idField : String) : List (String × Property) :=
  (d.properties.filter fun p => keepId || !p.isIdentifier).map fun p =>
    (if p.isIdentifier then idField else p.key, p)

/-- Builds fields in order, up to the first fault. -/
def fieldsOf (r : Registry) (nest : Class Value → Except Error Document) (c : Class Value) :
    List (String × Property) → Except Error (List (Field Document))
  | [] => .ok []
  | (name, p) :: rest => do
    let f ← fieldOf r nest c name p
    return f :: (← fieldsOf r nest c rest)

/-- The schema of a class, expanded over the given number of levels. -/
def expand (r : Registry) (idField : String) : (levels : Nat) → (embedded : Bool) → Class Value →
    Except Error Document
  | 0, _, c => .ok (placeholder c.name.text idField)
  | levels + 1, embedded, c => do
    let d ← r.descriptor (.cls c)
    let keepId := keepsId d embedded
    let kept := keptProperties d keepId idField
    let fields ← fieldsOf r (expand r idField levels true) c kept
    return {
      name := some d.name
      fields
      hasId := keepId
      idField
      together := Renaming.groups (kept.map fun (name, p) => (p.key, name)) d.together
      isPlaceholder := false }

/-- The number of levels from a depth to a limit, both included. -/
def levelsFrom (depth : Int) (limit : Nat) : Nat := (limit + 1 - depth).toNat

/-- Compiles a class to a document schema. No class gives the empty schema. -/
def compile (r : Registry) (settings : Except Error Settings) (cls : TypeExpr Value) (maxDepth : Option Int)
    (depth : Int) (embedded : Bool) : Except Error Document := do
  let limit ← Settings.limit settings maxDepth
  let s ← settings
  match cls with
  | .absent => return empty s.documentIdField
  | .cls c => expand r s.documentIdField (levelsFrom depth limit) embedded c
  | t =>
    if depth > limit then return placeholder (← t.requireName) s.documentIdField
    else .error (.missing (.metadata t.ownName))

end Document

end Trischema
