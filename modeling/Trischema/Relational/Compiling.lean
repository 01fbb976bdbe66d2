import Trischema.Relational.Basic
import Trischema.Property.Renaming
import Trischema.Registry.Export
import Trischema.Settings

/-!
Compiling classes to relational schemas. Properties become columns and relationships relations; one
without a cardinality has no relational shape and is left out with a warning. Warnings are given even
when a later relation cannot be compiled.
-/

namespace Trischema

/-- A result with the warnings that were given on the way to it. -/
structure Warned (α : Type) where
  warnings : List String
  result : Except Error α

namespace Warned

variable {α : Type}

def ofResult (result : Except Error α) : Warned α := ⟨[], result⟩

def fail (e : Error) : Warned α := ofResult (.error e)

end Warned

namespace Relational

/-- The column of a property that is no relationship. A primary key of texts is made by the engine and
has no default of its own. -/
def columnOf (name : String) (p : Property) : Except Error Column := do
  let (type, elements) ← match p.classification with
    | some (.single (.embedded _)) | some (.array (.embedded _)) => Except.ok (ColumnType.document, none)
    | some (.single e) => .ok (.ofScalar (e.scalar?.getD .string), none)
    | some (.array e) => .ok (.array, some (.ofScalar (e.scalar?.getD .string)))
    | _ => .error (.failure .kind)
  let generated := if p.isIdentifier && type == .text then some "uuid" else none
  return {
    name
    type
    nullable := p.optional
    unique := p.isUnique
    primary := p.isIdentifier
    enum := p.classification.bind Classification.values?
    default := if generated.isSome then none else p.default
    generated
    elements }

/-- The join column of a relation. -/
def joinColumnOf (rel : Relationship Value) : Option JoinColumn :=
  match rel.owner, rel.cardinality with
  | true, some (.known .oneToOne) | true, some (.known .manyToOne) =>
    some (match rel.joinColumns with
      | name :: _ => .named name
      | [] => .byConvention)
  | _, _ => none

/-- The join table of a relation. -/
def joinTableOf (rel : Relationship Value) : Option JoinTable :=
  match rel.owner, rel.cardinality with
  | true, some (.known .manyToMany) =>
    let name := if rel.joinTable.truthy then some rel.joinTable else none
    let columns := match rel.joinColumns with
      | near :: far :: _ => some (near, far)
      | _ => none
    some (if name.isSome || columns.isSome then .custom name columns else .byConvention)
  | _, _ => none

/-- The relation of a relationship with a cardinality. -/
def relationOf (r : Registry) (c : Class Value) (key : String) (rel : Relationship Value)
    (kind : Choice Cardinality Value) : Except Error Relation := do
  let target ← r.resolve c key rel
  return {
    name := key
    kind
    target := r.nameOf target
    inverse := rel.inverse
    cascade := rel.cascade
    eager := rel.eager
    joinColumn := joinColumnOf rel
    joinTable := joinTableOf rel }

/-- The warning about a relationship that has no relational shape. -/
def noCardinality (name key : String) : String :=
  "Unknown or unspecified cardinality for relationship '" ++ name ++ "." ++ key ++ "'; skipping relation"

/-- The relations of a class in order, up to the first that cannot be compiled. -/
def relationsOf (r : Registry) (c : Class Value) : List (String × Relationship Value) → Warned (List Relation)
  | [] => .ofResult (.ok [])
  | (key, rel) :: rest =>
    match rel.cardinality with
    | none =>
      let rest := relationsOf r c rest
      { rest with warnings := noCardinality (r.nameOf c) key :: rest.warnings }
    | some kind =>
      match relationOf r c key rel kind with
      | .error e => .fail e
      | .ok relation =>
        let rest := relationsOf r c rest
        { rest with result := rest.result.map (relation :: ·) }

/-- The properties that become columns, with their names. -/
def kept (d : Descriptor) (s : Settings) : List (String × Property) :=
  (d.properties.filter (!·.isRelationship)).map fun p =>
    (Renaming.ofIdentifier s.documentIdField s.relationalIdField p, p)

/-- The table of a merged descriptor. -/
def ofDescriptor (r : Registry) (s : Settings) (d : Descriptor) : Warned Relational :=
  let kept := kept d s
  let names : Renaming := kept.map fun (name, p) => (p.key, name)
  let relations := relationsOf r d.cls d.links
  { warnings := relations.warnings
    result := do
      let relations ← relations.result
      let columns ← kept.mapM fun (name, p) => columnOf name p
      return { name := d.name, columns, relations, together := names.groups d.together, isPlaceholder := false } }

/-- Compiles a class to a relational schema. No class, like one past the limit, gives the placeholder. -/
def compile (r : Registry) (settings : Except Error Settings) (cls : TypeExpr Value) (maxDepth : Option Int)
    (depth : Int) : Warned Relational :=
  match Settings.limit settings maxDepth with
  | .error e => .fail e
  | .ok limit =>
    if cls.isAbsent then .ofResult (.ok placeholder)
    else if depth > limit then .ofResult (cls.requireName.map fun _ => placeholder)
    else
      match r.descriptor cls, settings with
      | .error e, _ | .ok _, .error e => .fail e
      | .ok d, .ok s => ofDescriptor r s d

end Relational

end Trischema
