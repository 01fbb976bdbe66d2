import Trischema.Backend
import Trischema.Proofs.Outcome

/-!
What is read of a registry depends on its contents alone. Where the same is filed under every name, merging answers the
same, and where names find the same classes in the same order, the export and compiling do; so they do before and
after a registry is frozen.
-/

namespace Trischema

namespace Registry

variable {r s : Registry} {c : Class Value}

/-- The same contents under another fingerprint, or under none. -/
def withFingerprint (r : Registry) (fingerprint : Option String) : Registry := { r with fingerprint }

/-- A registry that is frozen keeps its contents and stores the fingerprint of its export. -/
theorem freeze_eq_ok {fingerprint : String} : r.freeze = .ok (fingerprint, s) ↔
    r.frozen = false ∧ r.computeFingerprint = .ok fingerprint ∧ s = r.withFingerprint (some fingerprint) := by
  simp only [freeze,checkMutable,bind_eq_ok,pure_eq_ok,withFingerprint]
  cases r.frozen with
  | true => simp
  | false =>
    constructor
    · rintro ⟨_,_,computed,hcomputed,heq⟩
      cases heq
      exact ⟨rfl,hcomputed,rfl⟩
    · rintro ⟨_,hcomputed,rfl⟩
      exact ⟨⟨⟩,rfl,fingerprint,hcomputed,rfl⟩

/-- Registries in which the same is filed under every name. -/
structure FiledAs (r r' : Registry) : Prop where
  marked : ∀ name, filed? r.entities name = filed? r'.entities name
  declared : ∀ name, filed? r.declarations name = filed? r'.declarations name

namespace FiledAs

variable {r r' : Registry}

theorem registration (h : FiledAs r r') : r.registration = r'.registration := by
  funext c
  rw [Registry.registration,Registry.registration,h.marked]

theorem isRegistered (h : FiledAs r r') : r.isRegistered = r'.isRegistered := by
  funext c
  rw [Registry.isRegistered,Registry.isRegistered,h.marked,h.declared]

theorem nameOf (h : FiledAs r r') : r.nameOf = r'.nameOf := by
  funext c
  rw [Registry.nameOf,Registry.nameOf,h.registration]

theorem isEmbedded (h : FiledAs r r') : r.isEmbedded = r'.isEmbedded := by
  funext c
  rw [Registry.isEmbedded,Registry.isEmbedded,h.registration]

theorem isEmbeddable (h : FiledAs r r') : r.isEmbeddable = r'.isEmbeddable := by
  funext c
  rw [Registry.isEmbeddable,Registry.isEmbeddable,h.isRegistered]

theorem folded (h : FiledAs r r') : r.folded = r'.folded := by
  have hcontribute : r.contribute = r'.contribute := by
    funext table name
    rw [contribute,contribute,Registry.declared,Registry.declared,h.declared]
  funext c
  rw [Registry.folded,Registry.folded,hcontribute]

theorem property (h : FiledAs r r') : r.property = r'.property := by
  have hclassify : r.classify = r'.classify := by
    funext c key o
    rw [classify,classify,h.isEmbeddable,h.nameOf]
  funext c key o
  rw [Registry.property,Registry.property,hclassify]

theorem properties (h : FiledAs r r') (c : Class Value) (table : OptionTable) :
    r.properties c table = r'.properties c table := by
  induction table with
  | nil => rfl
  | cons entry table ih => rw [Registry.properties,Registry.properties,ih,h.property]

theorem merge (h : FiledAs r r') : r.merge = r'.merge := by
  funext c
  rw [Registry.merge,Registry.merge,h.nameOf,h.folded,h.isEmbedded,h.registration]
  simp only [h.properties]

theorem descriptor (h : FiledAs r r') (t : TypeExpr Value) : r.descriptor t = r'.descriptor t := by
  cases t with
  | cls c => rw [Registry.descriptor,Registry.descriptor,h.isRegistered,h.merge]
  | _ => rfl

end FiledAs

/-- Registries in which, besides, names find the same classes in the same order. -/
structure ReadsAs (r r' : Registry) : Prop extends FiledAs r r' where
  lookup? : r.lookup? = r'.lookup?
  sortedClasses : r.sortedClasses = r'.sortedClasses

namespace ReadsAs

variable {r r' : Registry}

theorem resolve (h : ReadsAs r r') : r.resolve = r'.resolve := by
  funext c key rel
  rw [Registry.resolve,Registry.resolve,h.nameOf,h.lookup?]

theorem exportClass (h : ReadsAs r r') : r.exportClass = r'.exportClass := by
  have hproperty : r.exportProperty = r'.exportProperty := by
    funext c p
    rw [exportProperty,exportProperty,h.resolve,h.nameOf]
  funext c
  rw [Registry.exportClass,Registry.exportClass,h.merge,hproperty]

theorem toRecord (h : ReadsAs r r') : r.toRecord = r'.toRecord := by
  rw [Registry.toRecord,Registry.toRecord,h.exportClass,h.sortedClasses]

theorem computeFingerprint (h : ReadsAs r r') : r.computeFingerprint = r'.computeFingerprint := by
  rw [Registry.computeFingerprint,Registry.computeFingerprint,h.toRecord]

end ReadsAs

end Registry

section Compiling

variable {r r' : Registry} (h : r.ReadsAs r')

include h

theorem Document.fieldsOf_readsAs (nest : Class Value → Except Error Document) (c : Class Value)
    (kept : List (String × Property)) : fieldsOf r nest c kept = fieldsOf r' nest c kept := by
  have hshape : shapeOf r nest = shapeOf r' nest := by
    funext c p k
    rw [shapeOf.eq_def,shapeOf.eq_def,h.resolve,h.nameOf]
  have hfield : fieldOf r nest = fieldOf r' nest := by
    funext c name p
    rw [fieldOf,fieldOf,hshape]
  induction kept with
  | nil => rfl
  | cons entry kept ih => rw [fieldsOf,fieldsOf,ih,hfield]

theorem Document.expand_readsAs (idField : String) (levels : Nat) : expand r idField levels = expand r' idField levels := by
  induction levels with
  | zero => rfl
  | succ levels ih =>
    funext embedded c
    rw [expand,expand,ih,h.descriptor]
    simp only [fieldsOf_readsAs h]

theorem Relational.relationsOf_readsAs (c : Class Value) (links : List (String × Relationship Value)) :
    relationsOf r c links = relationsOf r' c links := by
  have hrelation : relationOf r = relationOf r' := by
    funext c key rel kind
    rw [relationOf,relationOf,h.resolve,h.nameOf]
  induction links with
  | nil => rfl
  | cons link links ih => rw [relationsOf,relationsOf,ih,hrelation,h.nameOf]

/-- Registries that are read alike compile alike, and warn alike. -/
theorem Artifact.compile_readsAs (settings : Except Error Settings) (t : TypeExpr Value) (maxDepth : Option Int)
    (backend : Backend) : compile r settings t maxDepth backend = compile r' settings t maxDepth backend := by
  cases backend with
  | document => simp only [compile,Document.compile,Document.expand_readsAs h]
  | graph =>
    have hedge : Graph.edgeOf r = Graph.edgeOf r' := by
      funext d names key rel
      rw [Graph.edgeOf,Graph.edgeOf,h.resolve,h.nameOf]
    simp only [compile,Graph.compile,h.descriptor,hedge]
  | relational =>
    simp only [compile,Relational.compile,h.descriptor,Relational.ofDescriptor,Relational.relationsOf_readsAs h]

end Compiling

namespace Registry

variable (r : Registry) (f : Option String)

theorem readsAs_withFingerprint : (r.withFingerprint f).ReadsAs r := ⟨⟨fun _ => rfl,fun _ => rfl⟩,rfl,rfl⟩

@[simp]
theorem withFingerprint_lookup? : (r.withFingerprint f).lookup? = r.lookup? := rfl

@[simp]
theorem withFingerprint_descriptor (t : TypeExpr Value) : (r.withFingerprint f).descriptor t = r.descriptor t :=
  (r.readsAs_withFingerprint f).descriptor t

@[simp]
theorem withFingerprint_toRecord : (r.withFingerprint f).toRecord = r.toRecord :=
  (r.readsAs_withFingerprint f).toRecord

end Registry

/-- Compiling answers and warns the same before and after a registry is frozen. -/
theorem Artifact.compile_withFingerprint (r : Registry) (f : Option String) (settings : Except Error Settings)
    (t : TypeExpr Value) (maxDepth : Option Int) (backend : Backend) :
    compile (r.withFingerprint f) settings t maxDepth backend = compile r settings t maxDepth backend :=
  Artifact.compile_readsAs (r.readsAs_withFingerprint f) settings t maxDepth backend

end Trischema
