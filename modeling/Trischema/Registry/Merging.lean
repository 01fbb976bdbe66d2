import Trischema.Registry.Basic

/-!
Merged descriptors. The options of a class are folded over its lineage from base to derived: a class
adds the properties of its domain base and then its own declarations, and later options win part by
part. A class that is stored on its own gets an identifier when it has none.
-/

namespace Trischema

namespace Builtin

/-- The properties that a domain base brings to every class below it. -/
def domainProperties : Builtin → OptionTable
  | .entity => [
      ("id", { type := some (.builtin .identifier), isIdentifier := some true,
               default := some (.callable .generateId), synthetic := true }),
      ("created_at", { type := some (.builtin .moment) }),
      ("updated_at", { type := some (.builtin .moment), optional := some true })]
  | .enumeration => [
      ("id", { type := some (.builtin .integer) }),
      ("name", { type := some (.builtin .text) })]
  | _ => []

end Builtin

namespace ClassName

/-- The properties that a class has by being a domain base. -/
def domainProperties : ClassName → OptionTable
  | builtin b => b.domainProperties
  | defined .. => []

end ClassName

namespace Registry

/-- Adds what one class of a lineage contributes; `object` contributes nothing. -/
def contribute (r : Registry) (folded : OptionTable) (name : ClassName) : OptionTable :=
  if name = .builtin .object then folded
  else
    let injected := name.domainProperties.foldl (fun t (k, o) => t.upsert .overlay k o) folded
    (r.declared name).foldl (fun t (k, o) => t.upsert .declaredOver k o) injected

/-- The options of a class with those of its ancestors. -/
def folded (r : Registry) (c : Class Value) : OptionTable :=
  c.lineage.reverse.foldl r.contribute []

/-- The keys that were declared to be the identifier. -/
def explicitIdentifiers (table : OptionTable) : List String :=
  (table.filter fun (_, o) => o.identifies && !o.synthetic).map (·.1)

/-- Removes an identifier that nobody declared, where another key was declared to be the identifier. -/
def dropSynthetic (table : OptionTable) (declared : String) : OptionTable :=
  table.filter fun (k, o) => !(o.synthetic && o.identifies && k != declared)

/-- The identifier of a class that has none of its own. -/
def synthesized : Options :=
  { type := some (.builtin .identifier), isIdentifier := some true,
    default := some (.callable .generateId), synthetic := true }

/-- Puts an identifier in front of a class that is stored on its own and has none. An existing key `id`
keeps its options but gives up its place. -/
def withIdentifier (table : OptionTable) (embedded : Bool) : OptionTable :=
  if !embedded && !(table.any fun (_, o) => o.identifies) then
    ("id", (table.lookup "id").getD synthesized) :: table.filter (·.1 != "id")
  else table

/-- Classifies the type of a property. A class that nothing is known about is reported as missing. -/
def classify (r : Registry) (c : Class Value) (key : String) (o : Options) : Except Error Classification :=
  let declared := o.type.getD .absent
  match Classification.ofProperty r.isEmbeddable o.enum o.relationship declared with
  | .ok k => .ok k
  | .error fault =>
    match declared.arrayForm with
    | .error shape => .error (.definitionAnywhere shape)
    | .ok form =>
      let inner := match form with
        | .typed e => e
        | .untyped => .builtin .object
        | .none => declared
      match inner with
      | .cls d => .error (.missing (.declaredType (r.nameOf c) key d.name.text))
      | _ => .error (.definition (.unclassifiable (r.nameOf c) key fault) ⟨some (r.nameOf c), some key⟩)

/-- The property that merged options describe. -/
def property (r : Registry) (c : Class Value) (key : String) (o : Options) : Except Error Property := do
  let classification ← r.classify c key o
  return {
    key
    type := o.type.getD .absent
    unique := o.unique
    optional := o.optional
    isIdentifier := o.identifies
    enum := o.enum
    default := o.default
    relationship := o.relationship
    classification := some classification
    synthetic := o.synthetic }

/-- Builds properties in order, up to the first fault. -/
def properties (r : Registry) (c : Class Value) : OptionTable → Except Error (List Property)
  | [] => .ok []
  | (key, o) :: rest => do
    let p ← r.property c key o
    return p :: (← properties r c rest)

/-- Refuses composite keys that name unknown properties. -/
def checkTogether (name : String) (keys : List String) : List (List String) → Except Error Unit
  | [] => .ok ()
  | group :: rest =>
    let unknown := group.filter (!keys.contains ·)
    if unknown.isEmpty then checkTogether name keys rest
    else .error (.definition (.unknownTogether name unknown) ⟨some name, none⟩)

/-- The merged descriptor of a class, registered or not. -/
def merge (r : Registry) (c : Class Value) : Except Error Descriptor := do
  let name := r.nameOf c
  let table := r.folded c
  let table ← match explicitIdentifiers table with
    | [] => Except.ok table
    | [key] => .ok (dropSynthetic table key)
    | keys => .error (.definition (.manyIdentifiers name keys) ⟨some name, none⟩)
  let embedded := r.isEmbedded c
  let properties ← r.properties c (withIdentifier table embedded)
  let together := (r.registration c).together
  checkTogether name (properties.map (·.key)) together
  return ⟨c, name, properties, embedded, together⟩

/-- The class of a name, which must be registered. -/
def entity (r : Registry) (name : String) : Except Error (Class Value) :=
  match r.lookup? name with
  | some c => .ok c
  | none => .error (.missing (.entity name))

/-- The merged descriptor of a registered class. -/
def descriptor (r : Registry) (cls : TypeExpr Value) : Except Error Descriptor :=
  match cls with
  | .cls c => if r.isRegistered c then r.merge c else .error (.missing (.metadata c.name.text))
  | t => .error (.missing (.metadata t.ownName))

end Registry

end Trischema
