import Trischema.Error
import Trischema.Value.Equality

/-!
Storage kinds of declared types. A property holds one element or an array of elements, or it is a
relationship; an element is a scalar, an identifier, one of a set of values, or an instance of a class
that is stored inline. `isSupported` is the shallow check made at registration, `classify` the full one.
-/

namespace Trischema

/-- Scalar kinds that do not depend on a backend; `object` is an opaque document. -/
inductive Scalar
  | string | integer | float | boolean | datetime | date | bytes | object
  deriving DecidableEq, Repr

namespace Scalar

def text : Scalar → String
  | string => "string" | integer => "integer" | float => "float" | boolean => "boolean"
  | datetime => "datetime" | date => "date" | bytes => "bytes" | object => "object"

/-- The scalar kind of a builtin class. -/
def ofBuiltin? : Builtin → Option Scalar
  | .text => some string
  | .integer => some integer
  | .real => some float
  | .boolean => some boolean
  | .moment => some datetime
  | .date => some date
  | .bytes => some bytes
  | .mapping | .object | .any => some object
  | _ => none

/-- The scalar kind of a declared type that is primitive. -/
def ofType? : TypeExpr Value → Option Scalar
  | .cls c =>
    match c.name with
    | .builtin b => ofBuiltin? b
    | .defined .. => none
  | _ => none

/-- The scalar kind of a set of values: whole numbers, numbers, or texts for anything else. -/
def ofValues (vs : List Value) : Scalar :=
  let isWhole : Value → Bool
    | .int _ => true
    | .member ⟨_, .integer, _, _⟩ => true
    | _ => false
  let isReal : Value → Bool
    | .float _ => true
    | v => isWhole v
  if vs.isEmpty then string
  else if vs.all isWhole then integer
  else if vs.all isReal then float
  else string

end Scalar

/-- How one stored element is kept. -/
inductive Element
  | primitive (s : Scalar)
  | identifier
  | enumerated (s : Scalar) (values : List Value)
  | embedded (c : Class Value)

/-- How a property is kept. -/
inductive Classification
  | single (e : Element)
  | array (e : Element)
  | relationship (r : Relationship Value)

/-- The storage kinds by name. -/
inductive StorageKind
  | primitive | identifier | enumerated | embedded | array | relationship
  deriving DecidableEq, Repr

namespace StorageKind

def text : StorageKind → String
  | primitive => "primitive"
  | identifier => "wrapped_identifier"
  | enumerated => "enumerated_set"
  | embedded => "embedded"
  | array => "array"
  | relationship => "relationship"

end StorageKind

namespace Element

def kind : Element → StorageKind
  | primitive _ => .primitive
  | identifier => .identifier
  | enumerated .. => .enumerated
  | embedded _ => .embedded

/-- The scalar of an element, unless it is an instance stored inline. -/
def scalar? : Element → Option Scalar
  | primitive s | enumerated s _ => some s
  | identifier => some .string
  | embedded _ => none

/-- The values that an element is restricted to. -/
def values? : Element → Option (List Value)
  | enumerated _ vs => some vs
  | _ => none

end Element

namespace Classification

def kind : Classification → StorageKind
  | single e => e.kind
  | array _ => .array
  | relationship _ => .relationship

/-- The values that a property, or each of its elements, is restricted to. -/
def values? : Classification → Option (List Value)
  | single e | array e => e.values?
  | relationship _ => none

end Classification

/-- Whether and how a type is an array. -/
inductive ArrayForm
  | none
  | untyped
  | typed (element : TypeExpr Value)

namespace TypeExpr

/-- Strips an optional type down to the type that it makes optional; other unions are refused. -/
def unwrapOptional : TypeExpr Value → Except DefinitionFault (TypeExpr Value × Bool)
  | t@(union _ ts) =>
    match ts.filter (!·.isUnit) with
    | [u] => if ts.length ≠ 1 then .ok (u, true) else .error (.unionType t.listing)
    | _ => .error (.unionType t.listing)
  | t => .ok (t, false)

/-- The array form of a type. A list of types must name exactly one. -/
def arrayForm : TypeExpr Value → Except DefinitionFault ArrayForm
  | shorthand [t] => .ok (.typed t)
  | t@(shorthand _) => .error (.shorthandArity t.listing)
  | cls c =>
    match c.name with
    | .builtin .list | .builtin .tuple | .builtin .set | .builtin .frozenSet => .ok .untyped
    | _ => .ok .none
  | generic head args =>
    if head.isArray then
      match args with
      | t :: _ => .ok (.typed t)
      | [] => .ok .untyped
    else .ok .none
  | _ => .ok .none

theorem sizeOf_unwrapOptional {t u : TypeExpr Value} {b : Bool} (h : t.unwrapOptional = .ok (u, b)) :
    sizeOf u ≤ sizeOf t := by
  unfold unwrapOptional at h
  split at h
  · rename_i form ts
    split at h
    · rename_i v hv
      split at h
      · simp only [Except.ok.injEq, Prod.mk.injEq] at h
        have hm : v ∈ ts := (List.mem_filter.1 (hv ▸ List.mem_singleton_self v)).1
        have := List.sizeOf_lt_of_mem hm
        rw [← h.1]
        simp only [union.sizeOf_spec]
        omega
      · cases h
    · cases h
  · simp only [Except.ok.injEq, Prod.mk.injEq] at h
    exact h.1 ▸ Nat.le_refl _

theorem sizeOf_arrayForm {t e : TypeExpr Value} (h : t.arrayForm = .ok (.typed e)) : sizeOf e < sizeOf t := by
  unfold arrayForm at h
  split at h
  · simp only [Except.ok.injEq, ArrayForm.typed.injEq] at h
    subst h
    simp only [shorthand.sizeOf_spec, List.cons.sizeOf_spec, List.nil.sizeOf_spec]
    omega
  · cases h
  · split at h <;> simp only [Except.ok.injEq, reduceCtorEq] at h
  · split at h
    · split at h
      · simp only [Except.ok.injEq, ArrayForm.typed.injEq] at h
        subst h
        simp only [generic.sizeOf_spec, List.cons.sizeOf_spec]
        omega
      · cases h
    · cases h
  · cases h

/-- The values of a type with finitely many: a constant set, an enumeration or a literal type. -/
def inferredValues? : TypeExpr Value → Option (List Value)
  | cls c => c.constants
  | literal vs => some vs
  | _ => none

/-- Whether a type is a dictionary with parameters. -/
def isMapping : TypeExpr Value → Bool
  | generic .mapping _ => true
  | _ => false

/-- The shallow check made at registration. Classes are accepted whether registered or not, since models
may be declared in any order. -/
def isSupported (t : TypeExpr Value) : Bool :=
  if t.isAbsent || (Scalar.ofType? t).isSome then true
  else
    match _unwrapped : t.unwrapOptional with
    | .error _ => false
    | .ok (u, _) =>
      match _form : u.arrayForm with
      | .error _ => false
      | .ok (.typed e) => e.isSupported
      | .ok .untyped => true
      | .ok .none =>
        match u with
        | cls _ | literal _ => true
        | _ => u.isMapping
termination_by sizeOf t
decreasing_by
  have := sizeOf_unwrapOptional _unwrapped
  have := sizeOf_arrayForm _form
  omega

end TypeExpr

namespace Class

/-- Entities and value objects are embeddable, their base classes are not. -/
def isDomainEmbeddable (c : Class Value) : Bool :=
  (c.isA .entity || c.isA .valueObject)
    && !(c.isExactly .entity || c.isExactly .valueObject || c.isExactly .enumeration)

end Class

namespace Element

/-- The element that a type which is no array is kept as. Given values come before the ones that the
type implies, and those before the type itself. -/
def classify (embeddable : Class Value → Bool) (given : Option (List Value)) (t : TypeExpr Value) :
    Except DefinitionFault Element :=
  match given, t.inferredValues? with
  | some vs, _ =>
    .ok (match Scalar.ofType? t with
      | some .object | none => .enumerated (Scalar.ofValues vs) vs
      | some s => .enumerated s vs)
  | none, some vs => .ok (.enumerated (Scalar.ofValues vs) vs)
  | none, none =>
    match Scalar.ofType? t with
    | some s => .ok (.primitive s)
    | none =>
      match t with
      | .cls c =>
        if c.isExactly .identifier then .ok .identifier
        else if embeddable c then .ok (.embedded c)
        else .error (.unsupportedDeclaredType t.listing)
      | .absent => .error .noDeclaredType
      | _ => if t.isMapping then .ok (.primitive .object) else .error (.unsupportedDeclaredType t.listing)

end Element

namespace Classification

/-- The classification of a declared type. Elements of an array are classified by the rules for single
values; an array of arrays is refused. -/
def ofType (embeddable : Class Value → Bool) (given : Option (List Value)) (t : TypeExpr Value) :
    Except DefinitionFault Classification :=
  match _unwrapped : t.unwrapOptional with
  | .error e => .error e
  | .ok (u, _) =>
    match _form : u.arrayForm with
    | .error e => .error e
    | .ok .none => (Element.classify embeddable given u).map .single
    | .ok .untyped => (Element.classify embeddable given (.builtin .object)).map .array
    | .ok (.typed e) =>
      match ofType embeddable given e with
      | .error fault => .error fault
      | .ok (.single inner) => .ok (.array inner)
      | .ok _ => .error (.nestedArray u.listing)
termination_by sizeOf t
decreasing_by
  have := TypeExpr.sizeOf_unwrapOptional _unwrapped
  have := TypeExpr.sizeOf_arrayForm _form
  omega

/-- The classification of a property: a relationship whatever its type, else that of its type. -/
def ofProperty (embeddable : Class Value → Bool) (given : Option (List Value))
    (relationship? : Option (Relationship Value)) (t : TypeExpr Value) :
    Except DefinitionFault Classification :=
  match relationship? with
  | some r => .ok (.relationship r)
  | none => ofType embeddable given t

/-- The classification of a property whose values are given as one value to go through. A value that
cannot be gone through is found out where the first element is classified: after a malformed type, before
an array of arrays. -/
def ofGiven (embeddable : Class Value → Bool) (given : Option Value)
    (relationship? : Option (Relationship Value)) (t : TypeExpr Value) : Except Error Classification :=
  match given.map Value.elements? with
  | none => (ofProperty embeddable none relationship? t).mapError .definitionAnywhere
  | some (some vs) => (ofProperty embeddable (some vs) relationship? t).mapError .definitionAnywhere
  | some none =>
    match ofProperty embeddable (some []) relationship? t with
    | .ok (.relationship r) => .ok (.relationship r)
    | .ok _ | .error (.nestedArray _) => .error (.failure .kind)
    | .error fault => .error (.definitionAnywhere fault)

end Classification

end Trischema
