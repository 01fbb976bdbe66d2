import Trischema.Registry.Merging
import Trischema.Json.Writer
import Trischema.Digest.Sha256

/-!
The export of a registry and its fingerprint. The export lists the merged descriptors by entity name
with resolved relationship targets; the fingerprint is a digest of its canonical text, and freezing
stores it.
-/

namespace Trischema

namespace Target

/-- What a resolver answers, or why it fails. -/
def resolve : Value → Except String Value
  | .callable c =>
    match c with
    | .factory _ result | .anonymous result | .resolver result => .ok result
    | .failing reason => .error reason
    | .generateId => .ok (.str "")
  | .type t =>
    match t with
    | .cls c => .ok (.type (.cls c))
    | .generic .sequence _ => .error "Type List cannot be instantiated; use list() instead"
    | .generic .mapping _ => .ok (.mapping [])
    | .generic head _ =>
      match head.origin with
      | .tuple => .ok (.tuple [])
      | .list => .ok (.list [])
      | _ => .ok (.set [])
    | .literal _ => .error "Cannot instantiate typing.Literal"
    | _ => .error "Cannot instantiate typing.Union"
  | v => .ok v

end Target

namespace Registry

/-- The class that a relationship points to. -/
def resolve (r : Registry) (c : Class Value) (key : String) (rel : Relationship Value) :
    Except Error (Class Value) :=
  let name := r.nameOf c
  let settle : Value → Except Error (Class Value)
    | .type (.cls d) => .ok d
    | v => .error (.unresolved (.notAClass v.listing) name key)
  match rel.target with
  | .cls d => .ok d
  | .named s =>
    match r.lookup? s with
    | some d => .ok d
    | none => settle .null
  | .resolver v =>
    match Target.resolve v with
    | .ok result => settle result
    | .error reason => .error (.unresolved (.resolverFailed reason) name key)

/-- The class that a property points to; only a relationship points to one. -/
def resolveProperty (r : Registry) (c : Class Value) (p : Property) : Except Error (Class Value) :=
  match p.relationship with
  | some rel => r.resolve c p.key rel
  | none => .error (.missing (.relationship (r.nameOf c) p.key))

/-- The export of one property with the name of its target. -/
def exportProperty (r : Registry) (c : Class Value) (p : Property) : Except Error Value := do
  let target ← match p.relationship with
    | some rel => (r.resolve c p.key rel).map fun d => some (r.nameOf d)
    | none => Except.ok none
  p.toRecord target

/-- The export of one class. -/
def exportClass (r : Registry) (c : Class Value) : Except Error Value := do
  let d ← r.merge c
  let _ ← d.toRecord
  return d.recordOf (← d.properties.mapM (r.exportProperty c))

/-- The registered classes by entity name; of equal names the earlier registered comes first. -/
def sortedClasses (r : Registry) : List (Class Value) :=
  r.classes.mergeSort fun a b => r.nameOf a ≤ r.nameOf b

/-- The export of all classes. -/
def toRecord (r : Registry) : Except Error Value := do
  return .record [("entities", .list (← r.sortedClasses.mapM r.exportClass))]

/-- The export as text, on one line or with an indent. -/
def toJsonText (r : Registry) (indent : Option Nat) : Except Error String := do
  let layout := match indent with
    | some width => Json.Layout.indented width
    | none => .spaced
  (← r.toRecord).toJsonText layout .asText

/-- The digest of the canonical text of the export. -/
def computeFingerprint (r : Registry) : Except Error String := do
  return "sha256:" ++ Sha256.hexDigest (← (← r.toRecord).toJsonText .compact .asText)

/-- Freezes the registry and returns the fingerprint. -/
def freeze (r : Registry) : Except Error (String × Registry) := do
  r.checkMutable .freeze
  let fingerprint ← r.computeFingerprint
  return (fingerprint, { r with fingerprint := some fingerprint })

end Registry

end Trischema
