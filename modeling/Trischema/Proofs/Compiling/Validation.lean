import Trischema.Document.Validator
import Trischema.Proofs.Compiling.Expansion
import Trischema.Proofs.Relational.Columns
import Trischema.Proofs.Repository.Preparing
import Trischema.Proofs.Value.Equality

/-!
Which records the validator of a class takes. What the rules of a document store mean is said here: the types that
plain values have of their own accord, and when a value meets the rules. Records whose values are of the kinds that
their properties are kept as are taken, but for one that has nothing where a single value out of a set may be left out.
-/

namespace Trischema

/-- The type that a document store gives a plain value of its own accord; whole numbers have 64 bits. -/
def Value.bsonType? : Value → Option String
  | .null => some "null"
  | .bool _ => some "bool"
  | .int _ | .member ⟨_, .integer, _, .int _⟩ => some "long"
  | .float _ => some "double"
  | .str _ | .member ⟨_, .text, _, .str _⟩ => some "string"
  | .bytes _ => some "binData"
  | .date _ | .moment _ => some "date"
  | .list _ => some "array"
  | .mapping _ => some "object"
  | _ => none

/-- Whether a document store takes two values for the same: they are equal, and of one type or both numbers. -/
def Value.sameStored (v w : Value) : Bool :=
  let numbers := [some "long", some "double"]
  v.same w && (v.bsonType? == w.bsonType? || numbers.contains v.bsonType? && numbers.contains w.bsonType?)

/-- The entries of an object. -/
def Value.entries? : Value → Option (List (Value × Value))
  | .mapping es => some es
  | _ => none

mutual

/-- Whether a value meets the rules of a validator. The rules for elements are for arrays alone, and those for fields
for objects alone. -/
def Validator.admits : Validator → Value → Bool
  | ⟨types, enum, items, properties, required⟩, v =>
    v.bsonType?.any types.contains && enum.all (·.any (·.sameStored v)) && admitsItems items v &&
      v.entries?.all fun es => admitsProperties properties es && required.all fun name => (Value.entry? (.str name) es).isSome

def admitsItems : List Validator → Value → Bool
  | item :: _, .list xs => xs.all fun x => item.admits x
  | _, _ => true

def admitsProperties : Option (List (String × Validator)) → List (Value × Value) → Bool
  | some ps, es => admitsFields ps es
  | none, _ => true

/-- Whether the fields of an object meet their rules; of several rules for one field the last holds. -/
def admitsFields : List (String × Validator) → List (Value × Value) → Bool
  | [], _ => true
  | (name, rules) :: ps, es =>
    (ps.any (·.1 == name) || (Value.entry? (.str name) es).all fun v => rules.admits v) && admitsFields ps es

end

namespace Validator

variable {v : Value} {es : List (Value × Value)}

theorem eq_null_of_bsonType? (h : v.bsonType? = some "null") : v = .null := by
  unfold Value.bsonType? at h
  split at h <;> first | rfl | simp at h

/-- Allowing nothing changes nothing for what is there. -/
theorem orNull_admits (rules : Validator) (h : v ≠ .null) : rules.orNull.admits v = rules.admits v := by
  obtain ⟨types,enum,items,properties,required⟩ := rules
  have htypes : v.bsonType?.any (types ++ ["null"]).contains = v.bsonType?.any types.contains := by
    cases htype : v.bsonType? with
    | none => rfl
    | some type =>
      have hne : type ≠ "null" := fun heq => h (eq_null_of_bsonType? (htype.trans (congrArg some heq)))
      simp [hne]
  rw [orNull,admits,admits,htypes]

theorem orNull_admits_null (rules : Validator) :
    rules.orNull.admits .null = rules.enum.all (·.any (·.sameStored .null)) := by
  obtain ⟨types,enum,items,properties,required⟩ := rules
  have htypes : Value.null.bsonType?.any (types ++ ["null"]).contains = true := by simp [Value.bsonType?]
  have hitems : admitsItems items .null = true := by cases items <;> rfl
  rw [orNull,admits,htypes,hitems,Bool.true_and,Bool.and_true]
  exact Bool.and_true _

theorem scalar_admits {s : Scalar} {enum : Option (List Value)} (h : v.bsonType? = some s.bsonType) :
    (scalar s enum).admits v = enum.all (·.any (·.sameStored v)) := by
  rw [scalar,admits,h]
  cases v <;> simp [admitsItems,admitsProperties,Value.entries?]

theorem array_admits (item : Validator) (xs : List Value) : (array item).admits (.list xs) = xs.all fun x => item.admits x := by
  rw [array,admits,admitsItems]
  exact Bool.and_true _

/-- Of the rules for one field the last hold. -/
theorem admitsFields_iff {ps : List (String × Validator)} : admitsFields ps es = true ↔
    ∀ name entry, ps.reverse.find? (·.1 == name) = some entry → ∀ v, Value.entry? (.str name) es = some v →
      entry.2.admits v = true := by
  induction ps with
  | nil => exact iff_of_true rfl fun _ _ h => by cases h
  | cons first ps ih =>
    rw [forall_last_cons,← ih]
    obtain ⟨name,rules⟩ := first
    rw [admitsFields,Bool.and_eq_true,Bool.or_eq_true,Option.all_eq_true]

end Validator

/-- The rules for what a field holds when it is there. -/
def FieldShape.rules (enum : Option (List Value)) : FieldShape Document → Validator
  | .scalar s => Validator.scalar s enum
  | .scalars s => Validator.array (Validator.scalar s enum)
  | .nested s => s.validator
  | .nestedArray s => Validator.array s.validator
  | .references _ => Validator.references

namespace Field

variable {f : Field Document} {v : Value}

/-- The rules for a field, which holds nothing as well where it is optional. -/
def validator (f : Field Document) : Validator :=
  if f.optional = some true && !f.shape.target?.isSome then (f.shape.rules f.enum).orNull else f.shape.rules f.enum

theorem validator_admits (hv : v ≠ .null) : f.validator.admits v = (f.shape.rules f.enum).admits v := by
  rw [validator]
  split
  · exact (f.shape.rules f.enum).orNull_admits hv
  · rfl

theorem validator_references {target : String} (hshape : f.shape = .references target) :
    f.validator = Validator.references := by
  rw [validator,hshape,FieldShape.target?,Option.isSome_some,Bool.not_true,Bool.and_false]
  rfl

theorem validator_admits_null (hoptional : f.optional = some true) (hlink : f.shape.target? = none) :
    f.validator.admits .null = (f.shape.rules f.enum).enum.all (·.any (·.sameStored .null)) := by
  rw [validator,hoptional,hlink]
  exact (f.shape.rules f.enum).orNull_admits_null

end Field

namespace Document

variable {schema : Document} {es : List (Value × Value)}

theorem fieldValidators_eq (fields : List (Field Document)) :
    fieldValidators fields = fields.map fun f => (f.name, f.validator) := by
  induction fields with
  | nil => rfl
  | cons f fields ih =>
    obtain ⟨name,shape,enum,unique,optional,default,isIdentifier⟩ := f
    cases shape <;> (rw [fieldValidators,ih]; rfl)

/-- The field whose rules hold under a name: of several the last. -/
def lastField? (schema : Document) (name : String) : Option (Field Document) :=
  schema.fields.reverse.find? (·.name == name)

/-- An object meets the rules of a schema when its fields meet those that hold for them and those that it must have are
there. -/
theorem validator_admits : schema.validator.admits (.mapping es) = true ↔
    (∀ name f, schema.lastField? name = some f → ∀ v, Value.entry? (.str name) es = some v →
      f.validator.admits v = true) ∧
    ∀ f ∈ schema.fields, f.isRequired = true → (Value.entry? (.str f.name) es).isSome = true := by
  obtain ⟨name,fields,hasId,idField,together,isPlaceholder⟩ := schema
  have hobject : Value.bsonType? (.mapping es) = some "object" := rfl
  have hrules : admitsFields (fieldValidators fields) es = true ↔
      ∀ name f, fields.reverse.find? (·.name == name) = some f → ∀ v, Value.entry? (.str name) es = some v →
        f.validator.admits v = true := by
    rw [fieldValidators_eq,Validator.admitsFields_iff]
    refine forall_congr' fun name => ?_
    have hfind : (fields.map fun f => (f.name, f.validator)).reverse.find? (·.1 == name) =
        (fields.reverse.find? (·.name == name)).map fun f => (f.name, f.validator) := by
      rw [← List.map_reverse,List.find?_map]
      rfl
    rw [hfind]
    cases fields.reverse.find? (·.name == name) <;> simp
  have hrequired : ((fields.filter (·.isRequired)).map (·.name)).all
      (fun name => (Value.entry? (.str name) es).isSome) = true ↔
      ∀ f ∈ fields, f.isRequired = true → (Value.entry? (.str f.name) es).isSome = true := by
    simp only [List.all_map,List.all_filter,List.all_eq_true,Function.comp_apply,Bool.or_eq_true,Bool.not_eq_true',
      ← Bool.not_eq_true,← imp_iff_not_or]
  rw [validator,Validator.admits,hobject]
  simp only [Option.any_some,List.contains_cons,BEq.rfl,Bool.true_or,Option.all_none,admitsItems,Bool.true_and,
    Value.entries?,Option.all_some,admitsProperties,Bool.and_eq_true,hrules,hrequired,lastField?]

end Document

/-- Whether a plain value is a scalar of a kind. -/
def Scalar.Includes : Scalar → Value → Prop
  | string, .str _ | string, .member ⟨_, .text, _, .str _⟩ => True
  | integer, .int _ | integer, .member ⟨_, .integer, _, .int _⟩ => True
  | float, .float _ | boolean, .bool _ | datetime, .moment _ | date, .date _ | date, .moment _ => True
  | bytes, .bytes _ | object, .mapping _ => True
  | _, _ => False

mutual

/-- Whether a recorded value is one of an element: of its scalar and among its values, or the entries of an instance of
a class that is no entity, whose properties but the identifier are recorded in turn. -/
inductive TakesElement (r : Registry) : Element → Value → Prop
  | primitive {s : Scalar} {v : Value} (hv : s.Includes v) : TakesElement r (.primitive s) v
  | identifier {v : Value} (hv : Scalar.string.Includes v) : TakesElement r .identifier v
  | enumerated {s : Scalar} {vs : List Value} {v : Value} (hv : s.Includes v) (hamong : vs.any (·.sameStored v) = true) :
    TakesElement r (.enumerated s vs) v
  | embedded {e : Class Value} {es : List (Value × Value)} (hvalue : e.isA .entity = false)
    (hthere : ∀ d, r.descriptor (.cls e) = .ok d → ∀ p ∈ d.properties, p.isIdentifier = false → ∀ v,
      Value.entry? (.str p.key) es = some v → TakesProperty r p v)
    (hmissing : ∀ d, r.descriptor (.cls e) = .ok d → ∀ p ∈ d.properties, p.isIdentifier = false →
      Value.entry? (.str p.key) es = none → p.isRelationship = true ∨ p.optional = some true ∨ p.default.isSome = true) :
    TakesElement r (.embedded e) (.mapping es)

/-- Whether a recorded value is one of a property: of its declared type and among its values, nothing where it is
optional, or what a link keeps. -/
inductive TakesProperty (r : Registry) : Property → Value → Prop
  | unset {p : Property} (hoptional : p.optional = some true) : TakesProperty r p .null
  | single {p : Property} {e : Element} {v : Value} (hk : p.classification = some (.single e))
    (hv : TakesElement r e v) : TakesProperty r p v
  | array {p : Property} {e : Element} {xs : List Value} (hk : p.classification = some (.array e))
    (hxs : ∀ x ∈ xs, TakesElement r e x) : TakesProperty r p (.list xs)
  | noLink {p : Property} (hk : p.isRelationship = true) : TakesProperty r p .null
  | link {p : Property} {v : Value} (hk : p.isRelationship = true) (hv : Scalar.string.Includes v) : TakesProperty r p v
  | links {p : Property} {xs : List Value} (hk : p.isRelationship = true)
    (hxs : ∀ x ∈ xs, Scalar.string.Includes x) : TakesProperty r p (.list xs)

end

mutual

/-- Whether nothing is recorded somewhere for a single value out of a set, in which nothing is not. -/
inductive Document.Bars : Document → Value → Prop
  | field {schema : Document} {es : List (Value × Value)} {name : String} {f : Field Document} {v : Value}
    (hf : schema.lastField? name = some f) (hv : Value.entry? (.str name) es = some v) (hbars : Field.Bars f v) :
    Document.Bars schema (.mapping es)

inductive Field.Bars : Field Document → Value → Prop
  | unset {f : Field Document} {s : Scalar} {vs : List Value} (hshape : f.shape = .scalar s) (henum : f.enum = some vs)
    (hnull : vs.any (·.sameStored .null) = false) : Field.Bars f .null
  | nested {f : Field Document} {schema : Document} {v : Value} (hshape : f.shape = .nested schema)
    (hbars : Document.Bars schema v) : Field.Bars f v
  | nestedArray {f : Field Document} {schema : Document} {xs : List Value} {x : Value}
    (hshape : f.shape = .nestedArray schema) (hx : x ∈ xs) (hbars : Document.Bars schema x) : Field.Bars f (.list xs)

end

theorem Scalar.Includes.bsonType {s : Scalar} {v : Value} (h : s.Includes v) : v.bsonType? = some s.bsonType := by
  unfold Scalar.Includes at h
  split at h <;> first | rfl | exact h.elim

theorem Scalar.Includes.ne_null {s : Scalar} {v : Value} (h : s.Includes v) : v ≠ .null := by
  rintro rfl
  cases s <;> exact h

namespace Validator

theorem text_admits {v : Value} (h : Scalar.string.Includes v) : Validator.admits { types := ["string"] } v = true := by
  change (scalar .string none).admits v = true
  exact scalar_admits h.bsonType

theorem references_admits {v : Value} (h : Scalar.string.Includes v) : references.admits v = true := by
  have hitems : admitsItems [{ types := ["string"] }] v = true := by
    cases v <;> first | rfl | exact h.elim
  have hentries : v.entries? = none := by
    cases v <;> first | rfl | exact h.elim
  rw [references,admits,h.bsonType,hitems,hentries]
  rfl

theorem references_admits_list {xs : List Value} (h : ∀ x ∈ xs, Scalar.string.Includes x) :
    references.admits (.list xs) = true := by
  have hitems : admitsItems [{ types := ["string"] }] (.list xs) = true :=
    List.all_eq_true.mpr fun x hx => text_admits (h x hx)
  rw [references,admits,hitems]
  rfl

end Validator

theorem TakesElement.scalar {r : Registry} {e : Element} {s : Scalar} {v : Value} (h : TakesElement r e v)
    (hs : e.scalar? = some s) : s.Includes v ∧ e.values?.all (·.any (·.sameStored v)) = true := by
  cases h with
  | primitive hv =>
    cases hs
    exact ⟨hv,rfl⟩
  | identifier hv =>
    cases hs
    exact ⟨hv,rfl⟩
  | enumerated hv hamong =>
    cases hs
    exact ⟨hv,hamong⟩
  | embedded _ _ _ => cases hs

theorem TakesElement.entries {r : Registry} {e : Class Value} {v : Value} (h : TakesElement r (.embedded e) v) :
    ∃ es, v = .mapping es := by
  cases h with
  | embedded _ _ _ => exact ⟨_,rfl⟩

namespace TakesProperty

variable {r : Registry} {p : Property} {e : Element} {rel : Relationship Value} {v : Value}

theorem isRelationship_eq {k : Classification} (hk : p.classification = some k) :
    p.isRelationship = true ↔ ∃ rel, k = .relationship rel := by
  rw [Property.isRelationship,hk]
  cases k <;> simp

theorem ofSingle (h : TakesProperty r p v) (hk : p.classification = some (.single e)) (hthere : v ≠ .null) :
    TakesElement r e v := by
  cases h with
  | unset _ | noLink _ => exact absurd rfl hthere
  | single hk' hv => cases hk.symm.trans hk'; exact hv
  | array hk' _ => cases hk.symm.trans hk'
  | link hlink _ | links hlink _ =>
    obtain ⟨_,h⟩ := (isRelationship_eq hk).mp hlink
    cases h

theorem ofArray (h : TakesProperty r p v) (hk : p.classification = some (.array e)) (hthere : v ≠ .null) :
    ∃ xs, v = .list xs ∧ ∀ x ∈ xs, TakesElement r e x := by
  cases h with
  | unset _ | noLink _ => exact absurd rfl hthere
  | single hk' _ => cases hk.symm.trans hk'
  | array hk' hxs => cases hk.symm.trans hk'; exact ⟨_,rfl,hxs⟩
  | link hlink _ | links hlink _ =>
    obtain ⟨_,h⟩ := (isRelationship_eq hk).mp hlink
    cases h

theorem ofLink (h : TakesProperty r p v) (hk : p.classification = some (.relationship rel)) (hthere : v ≠ .null) :
    Scalar.string.Includes v ∨ ∃ xs, v = .list xs ∧ ∀ x ∈ xs, Scalar.string.Includes x := by
  cases h with
  | unset _ | noLink _ => exact absurd rfl hthere
  | single hk' _ | array hk' _ => cases hk.symm.trans hk'
  | link _ hv => exact .inl hv
  | links _ hxs => exact .inr ⟨_,rfl,hxs⟩

theorem ofNull (h : TakesProperty r p .null) : p.optional = some true ∨ p.isRelationship = true := by
  cases h with
  | unset hoptional => exact .inl hoptional
  | noLink hlink | link hlink _ => exact .inr hlink
  | single _ hv =>
    cases hv with
    | primitive hv | identifier hv | enumerated hv _ => exact absurd rfl hv.ne_null

end TakesProperty

namespace Field

variable {f : Field Document} {schema : Document} {s : Scalar} {v : Value}

theorem bars_scalar (hshape : f.shape = .scalar s) :
    f.Bars v ↔ v = .null ∧ f.enum.all (·.any (·.sameStored .null)) = false := by
  constructor
  · intro h
    cases h with
    | unset _ henum hnull => exact ⟨rfl,by rw [henum]; exact hnull⟩
    | nested hnested _ | nestedArray hnested _ _ => cases hshape.symm.trans hnested
  · rintro ⟨rfl,hnull⟩
    cases henum : f.enum with
    | none => rw [henum] at hnull; cases hnull
    | some vs => rw [henum] at hnull; exact .unset hshape henum hnull

theorem bars_nested (hshape : f.shape = .nested schema) : f.Bars v ↔ schema.Bars v := by
  constructor
  · intro h
    cases h with
    | nested hnested hbars => cases hshape.symm.trans hnested; exact hbars
    | unset hother _ _ | nestedArray hother _ _ => cases hshape.symm.trans hother
  · exact fun h => .nested hshape h

theorem bars_nestedArray (hshape : f.shape = .nestedArray schema) :
    f.Bars v ↔ ∃ xs, v = .list xs ∧ ∃ x ∈ xs, schema.Bars x := by
  constructor
  · intro h
    cases h with
    | nestedArray hnested hx hbars => cases hshape.symm.trans hnested; exact ⟨_,rfl,_,hx,hbars⟩
    | unset hother _ _ | nested hother _ => cases hshape.symm.trans hother
  · rintro ⟨xs,rfl,x,hx,hbars⟩
    exact .nestedArray hshape hx hbars

theorem not_bars (hnested : f.shape.nested? = none) (hscalar : ∀ {s}, f.shape ≠ .scalar s) : ¬f.Bars v := by
  intro h
  cases h with
  | unset hshape _ _ => exact hscalar hshape
  | nested hshape _ | nestedArray hshape _ _ => rw [hshape] at hnested; cases hnested

end Field

namespace Document

variable {r : Registry} {nest : Class Value → Except Error Document} {c : Class Value} {p : Property}
  {k : Classification} {shape : FieldShape Document} {name : String} {v : Value}

/-- Whether the schemas of classes take the instances that are recorded of them, but for what they bar. -/
def NestTakes (r : Registry) (nest : Class Value → Except Error Document) : Prop :=
  ∀ e schema es, nest e = .ok schema → TakesElement r (.embedded e) (.mapping es) →
    (schema.validator.admits (.mapping es) = true ↔ ¬schema.Bars (.mapping es))

/-- A field takes nothing where its property is optional, unless it holds a single value out of a set without it. -/
theorem Shaped.admits_null (hshape : Shaped r nest c p k shape) (hoptional : p.optional = some true) :
    (fieldWith name p k shape).validator.admits .null = true ↔ ¬(fieldWith name p k shape).Bars .null := by
  cases hshape with
  | scalar hs =>
    rw [Field.bars_scalar rfl,Field.validator_admits_null hoptional rfl,not_and,Bool.not_eq_false]
    exact ⟨fun h _ => h,fun h => h rfl⟩
  | scalars hs =>
    rw [Field.validator_admits_null hoptional rfl]
    exact iff_of_true rfl (Field.not_bars rfl fun h => by cases h)
  | @nested e schema hschema =>
    rw [Field.bars_nested rfl,Field.validator_admits_null hoptional rfl]
    exact iff_of_true (by cases schema; rfl) fun hbars => by cases hbars
  | nestedArray hschema =>
    rw [Field.bars_nestedArray rfl,Field.validator_admits_null hoptional rfl]
    exact iff_of_true rfl fun ⟨_,h,_⟩ => by cases h
  | references hd =>
    rw [Field.validator_references rfl]
    exact iff_of_true rfl (Field.not_bars rfl fun h => by cases h)

/-- A field takes a value that is there and recorded of its property, unless a schema that is nested in it does not. -/
theorem Shaped.admits_there (hnest : NestTakes r nest) (hk : p.classification = some k)
    (hshape : Shaped r nest c p k shape) (hv : TakesProperty r p v) (hthere : v ≠ .null) :
    (fieldWith name p k shape).validator.admits v = true ↔ ¬(fieldWith name p k shape).Bars v := by
  rw [Field.validator_admits hthere]
  cases hshape with
  | scalar hs =>
    obtain ⟨hincludes,hamong⟩ := (hv.ofSingle hk hthere).scalar hs
    rw [Field.bars_scalar rfl]
    refine iff_of_true ?_ fun h => hthere h.1
    exact (Validator.scalar_admits hincludes.bsonType).trans hamong
  | scalars hs =>
    obtain ⟨xs,rfl,hxs⟩ := hv.ofArray hk hthere
    refine iff_of_true ?_ (Field.not_bars rfl fun h => by cases h)
    refine (Validator.array_admits _ _).trans (List.all_eq_true.mpr fun x hx => ?_)
    obtain ⟨hincludes,hamong⟩ := (hxs x hx).scalar hs
    exact (Validator.scalar_admits hincludes.bsonType).trans hamong
  | nested hschema =>
    obtain ⟨es,rfl⟩ := (hv.ofSingle hk hthere).entries
    rw [Field.bars_nested rfl]
    exact hnest _ _ _ hschema (hv.ofSingle hk hthere)
  | @nestedArray e schema hschema =>
    obtain ⟨xs,rfl,hxs⟩ := hv.ofArray hk hthere
    rw [Field.bars_nestedArray rfl]
    have hall : (Validator.array schema.validator).admits (.list xs) = true ↔ ∀ x ∈ xs, ¬schema.Bars x := by
      rw [Validator.array_admits,List.all_eq_true]
      refine forall₂_congr fun x hx => ?_
      obtain ⟨es,rfl⟩ := (hxs x hx).entries
      exact hnest _ _ _ hschema (hxs _ hx)
    refine hall.trans ⟨fun h => ?_,fun h x hx hbars => h ⟨xs,rfl,x,hx,hbars⟩⟩
    rintro ⟨_,⟨⟩,x,hx,hbars⟩
    exact h x hx hbars
  | references hd =>
    refine iff_of_true ?_ (Field.not_bars rfl fun h => by cases h)
    rcases hv.ofLink hk hthere with htext | ⟨xs,rfl,hxs⟩
    · exact Validator.references_admits htext
    · exact Validator.references_admits_list fun x hx => hxs x hx

theorem Shaped.takes (hnest : NestTakes r nest) (hk : p.classification = some k)
    (hshape : Shaped r nest c p k shape) (hv : TakesProperty r p v) :
    (fieldWith name p k shape).validator.admits v = true ↔ ¬(fieldWith name p k shape).Bars v := by
  -- Nothing is let through before anything else is looked at; what is there meets the rules as they stand.
  by_cases hnull : v = .null
  · subst hnull
    rcases hv.ofNull with hoptional | hlink
    · exact hshape.admits_null hoptional
    · obtain ⟨rel,rfl⟩ := (TakesProperty.isRelationship_eq hk).mp hlink
      cases hshape with
      | references _ =>
        rw [Field.validator_references rfl]
        exact iff_of_true rfl (Field.not_bars rfl fun h => by cases h)
  · exact hshape.admits_there hnest hk hv hnull

theorem bars_iff {schema : Document} {es : List (Value × Value)} : schema.Bars (.mapping es) ↔
    ∃ name f v, schema.lastField? name = some f ∧ Value.entry? (.str name) es = some v ∧ f.Bars v := by
  constructor
  · intro h
    cases h with
    | field hf hv hbars => exact ⟨_,_,_,hf,hv,hbars⟩
  · rintro ⟨name,f,v,hf,hv,hbars⟩
    exact .field hf hv hbars

/-- Whether the entries of an object are recorded of properties under names, of several of one name of the last, and
all are there but those that may be missing. -/
structure TakesEntries (r : Registry) (kept : List (String × Property)) (es : List (Value × Value)) : Prop where
  there : ∀ name entry, kept.reverse.find? (·.1 == name) = some entry → ∀ v, Value.entry? (.str name) es = some v →
    TakesProperty r entry.2 v
  missing : ∀ entry ∈ kept, Value.entry? (.str entry.1) es = none → entry.2.isIdentifier = false ∧
    (entry.2.isRelationship = true ∨ entry.2.optional = some true ∨ entry.2.default.isSome = true)

/-- What may be missing is optional, a link or has a default, and none of these is required. -/
theorem isRequired_eq_false (hk : p.classification = some k) (hshape : Shaped r nest c p k shape)
    (hid : p.isIdentifier = false)
    (hskip : p.isRelationship = true ∨ p.optional = some true ∨ p.default.isSome = true) :
    (fieldWith name p k shape).isRequired = false := by
  have htarget := hshape.isNone_target hk
  simp only [Field.isRequired,fieldWith,hid,Bool.false_or,Bool.false_eq_true,if_false,← htarget]
  rcases hskip with hlink | hoptional | hdefault
  · rw [hlink]
    rfl
  · rw [hoptional]
    simp
  · rw [Option.isNone_eq_false_iff.mpr hdefault,Bool.and_false]

/-- A level takes what is recorded of a class, where the schemas that are nested in it do, but for what it bars. -/
theorem Level.takes {idField : String} {embedded : Bool} {d : Descriptor} {schema : Document} {es : List (Value × Value)}
    (h : Level r idField nest embedded c d schema) (hnest : NestTakes r nest)
    (hes : TakesEntries r (keptProperties d (keepsId d embedded) idField) es) :
    schema.validator.admits (.mapping es) = true ↔ ¬schema.Bars (.mapping es) := by
  have hnames : ∀ (entry : String × Property) f, fieldOf r nest c entry.1 entry.2 = .ok f → f.name = entry.1 := by
    intro entry f hfield
    obtain ⟨_,_,_,_,rfl⟩ := fieldOf_eq_ok.mp hfield
    rfl
  have hthere : ∀ name f, schema.lastField? name = some f → ∀ v, Value.entry? (.str name) es = some v →
      (f.validator.admits v = true ↔ ¬f.Bars v) := by
    intro name f hf v hv
    have hreverse := List.forall₂_reverse_iff.mpr h.fields
    obtain ⟨_,hnone⟩ | ⟨entry,f',hentry,hf',hplace⟩ :=
      find?_of_forall₂ (p := (·.1 == name)) (q := (·.name == name)) hreverse
        fun entry f hfield => by rw [hnames entry f hfield]
    · cases hnone.symm.trans hf
    · cases hf'.symm.trans hf
      obtain ⟨k,shape,hk,hshape,rfl⟩ := fieldOf_eq_ok.mp (List.forall₂_zip hreverse hplace)
      exact hshape.takes hnest hk (hes.there name entry hentry v hv)
  have hrequired : ∀ f ∈ schema.fields, f.isRequired = true → (Value.entry? (.str f.name) es).isSome = true := by
    intro f hf hrequired
    obtain ⟨entry,hentry,hfield⟩ := exists_left_of_forall₂ h.fields hf
    rw [hnames entry f hfield]
    by_contra hnone
    obtain ⟨hid,hskip⟩ := hes.missing entry hentry (Option.not_isSome_iff_eq_none.mp hnone)
    obtain ⟨k,shape,hk,hshape,rfl⟩ := fieldOf_eq_ok.mp hfield
    rw [isRequired_eq_false hk hshape hid hskip] at hrequired
    cases hrequired
  rw [validator_admits,bars_iff]
  constructor
  · rintro ⟨hall,_⟩ ⟨name,f,v,hf,hv,hbars⟩
    exact (hthere name f hf v hv).mp (hall name f hf v hv) hbars
  · intro hnot
    exact ⟨fun name f hf v hv => (hthere name f hf v hv).mpr fun hbars => hnot ⟨name,f,v,hf,hv,hbars⟩,hrequired⟩

/-- Schemas of embedded classes take the instances that are recorded of them, over whatever levels are left. -/
theorem expand_takes (idField : String) (levels : Nat) : NestTakes r (expand r idField levels true) := by
  induction levels with
  | zero =>
    intro e schema es h _
    cases h
    rw [validator_admits,bars_iff]
    exact iff_of_true ⟨fun _ _ h => (by cases h),List.forall_mem_nil _⟩ (by rintro ⟨_,_,_,h,_⟩; cases h)
  | succ levels ih =>
    intro e schema es h htakes
    obtain ⟨d,hlevel⟩ := level_eq_ok.mp h
    obtain ⟨_,hmerged⟩ := Registry.merge_cases (Registry.descriptor_registered hlevel.descriptor)
    cases htakes with
    | embedded hvalue hthere hmissing =>
      -- Inside a document the identifier of a value is dropped.
      have hdrops : keepsId d true = false := by
        rw [keepsId,hmerged.cls,hvalue]
        exact Bool.and_false _
      have hkept : ∀ entry ∈ keptProperties d (keepsId d true) idField,
          entry.2 ∈ d.properties ∧ entry.2.isIdentifier = false ∧ entry.1 = entry.2.key := by
        rw [hdrops]
        intro entry hentry
        obtain ⟨p,hp,rfl⟩ := List.mem_map.mp hentry
        obtain ⟨hp,hid⟩ := List.mem_filter.mp hp
        have hid : p.isIdentifier = false := by simpa using hid
        exact ⟨hp,hid,if_neg (by rw [hid]; exact Bool.false_ne_true)⟩
      refine hlevel.takes ih ⟨fun name entry hentry v hv => ?_,fun entry hentry hnone => ?_⟩
      · obtain ⟨hp,hid,hname⟩ := hkept entry (List.mem_reverse.mp (List.mem_of_find?_eq_some hentry))
        have hfound : (entry.1 == name) = true := List.find?_some (p := fun e : String × Property => e.1 == name) hentry
        rw [← beq_iff_eq.mp hfound,hname] at hv
        exact hthere d hlevel.descriptor entry.2 hp hid v hv
      · obtain ⟨hp,hid,hname⟩ := hkept entry hentry
        rw [hname] at hnone
        exact ⟨hid,hmissing d hlevel.descriptor entry.2 hp hid hnone⟩

end Document

theorem lookup_collapse {α : Type} (entries : List (String × α)) (name : String) :
    (collapse entries).lookup name = (entries.reverse.find? (·.1 == name)).map (·.2) := by
  have hfold (found : List (String × α)) : (entries.foldl (fun es entry => setNamed es entry.1 entry.2) found).lookup name =
      ((entries.reverse.find? (·.1 == name)).map (·.2)).or (found.lookup name) := by
    induction entries generalizing found with
    | nil => rfl
    | cons entry rest ih =>
      rw [List.foldl_cons,ih,Object.lookup_setNamed,find?_reverse_cons]
      cases rest.reverse.find? (·.1 == name) with
      | some later => rfl
      | none =>
        by_cases h : name = entry.1
        · simp [h]
        · have hother : (entry.1 == name) = false := beq_eq_false_iff_ne.mpr (Ne.symm h)
          simp [h,hother]
  exact (hfold []).trans (Option.or_none)

/-- The entries of a record under the names of documents, in which the identifier has another. -/
def Record.named (d : Descriptor) (idField : String) (record : Record) : Record :=
  record.map fun (key, v) => (if (d.get? key).any (·.isIdentifier) then idField else key, v)

/-- A record as a document, in which of several values of one name the last is kept. -/
def Record.renamed (d : Descriptor) (idField : String) (record : Record) : Record := collapse (record.named d idField)

theorem Record.entry?_toValue (record : Record) (name : String) :
    Value.entry? (.str name) (record.map fun (key, v) => (.str key, v)) = record.lookup name := by
  induction record with
  | nil => rfl
  | cons entry rest ih =>
    obtain ⟨key,v⟩ := entry
    have hsame : (Value.str key).sameKey (.str name) = (name == key) := by
      rw [Bool.eq_iff_iff,Value.sameKey_str,beq_iff_eq,eq_comm]
    rw [List.map_cons,Value.entry?,List.find?_cons,List.lookup_cons]
    dsimp only
    rw [hsame]
    cases name == key with
    | true => rfl
    | false => exact ih

theorem Record.named_eq {d : Descriptor} {record : Record} (hkeys : record.map (·.1) = d.keys) (hdistinct : d.keys.Nodup)
    (idField : String) : record.named d idField =
      d.properties.map fun p => (if p.isIdentifier then idField else p.key, record.field p.key) := by
  have hrecord : record = d.properties.map fun p => (p.key, record.field p.key) := by
    have hfields : record.map (fun entry => (entry.1, record.field entry.1)) = record :=
      Record.map_field (by rw [hkeys]; exact hdistinct)
    have hsame : record.map (fun entry => (entry.1, record.field entry.1)) =
        (record.map (·.1)).map fun key => (key, record.field key) := by rw [List.map_map]; rfl
    rw [hsame,hkeys,Descriptor.keys,List.map_map] at hfields
    exact hfields.symm
  -- Entries are renamed by key, so the property that is found under a key has to be the one of that key.
  have hfound : ∀ p ∈ d.properties, d.get? p.key = some p := by
    intro p hp
    have hsome : (d.get? p.key).isSome = true := List.find?_isSome.mpr ⟨p,hp,beq_self_eq_true p.key⟩
    obtain ⟨q,hq⟩ := Option.isSome_iff_exists.mp hsome
    have hkey : (q.key == p.key) = true := List.find?_some (p := fun q : Property => q.key == p.key) hq
    rw [hq,Descriptor.eq_of_key hdistinct (List.mem_of_find?_eq_some hq) hp (beq_iff_eq.mp hkey)]
  have hnamed : record.named d idField = (d.properties.map fun p => (p.key, record.field p.key)).map
      fun entry => (if (d.get? entry.1).any (·.isIdentifier) then idField else entry.1, entry.2) := by
    rw [← hrecord]
    rfl
  rw [hnamed,List.map_map]
  refine List.map_congr_left fun p hp => ?_
  rw [Function.comp_apply,hfound p hp]
  rfl

namespace Document

variable {r : Registry} {s : Settings} {c : Class Value} {d : Descriptor} {maxDepth : Option Int} {schema : Document}
  {entity : Value} {world : World} {record : Record}

theorem takesEntries_renamed {idField : String} (hkeys : record.map (·.1) = d.keys) (hdistinct : d.keys.Nodup)
    (htakes : ∀ p ∈ d.properties, TakesProperty r p (record.field p.key)) :
    TakesEntries r (d.properties.map fun p => (if p.isIdentifier then idField else p.key, p))
      ((record.renamed d idField).map fun entry => (.str entry.1, entry.2)) := by
  have hentry (name : String) : Value.entry? (.str name)
      ((record.renamed d idField).map fun entry => (.str entry.1, entry.2)) =
        (d.properties.reverse.find? fun p => (if p.isIdentifier then idField else p.key) == name).map
          fun p => record.field p.key := by
    refine (Record.entry?_toValue (record.renamed d idField) name).trans ?_
    rw [Record.renamed,lookup_collapse,Record.named_eq hkeys hdistinct,← List.map_reverse,List.find?_map,Option.map_map]
    rfl
  constructor
  · intro name entry hfound v hv
    rw [← List.map_reverse,List.find?_map] at hfound
    obtain ⟨p,hp,rfl⟩ := Option.map_eq_some_iff.mp hfound
    have hvalue := (hentry name).symm.trans hv
    rw [show d.properties.reverse.find? (fun p => (if p.isIdentifier then idField else p.key) == name) = some p from hp]
      at hvalue
    cases hvalue
    exact htakes p (List.mem_reverse.mp (List.mem_of_find?_eq_some hp))
  · intro entry hmem hnone
    obtain ⟨p,hp,rfl⟩ := List.mem_map.mp hmem
    have hmissing := Option.map_eq_none_iff.mp ((hentry _).symm.trans hnone)
    have habsent := List.find?_eq_none.mp hmissing p (List.mem_reverse.mpr hp)
    exact absurd (beq_self_eq_true _) habsent

/-- The validator of a class takes the record of every instance whose recorded values are those of its properties,
unless nothing is recorded for a single value out of a set, which the validator bars although it is optional. -/
theorem validator_takes_records (hd : r.descriptor (.cls c) = .ok d)
    (hschema : compile r (.ok s) (.cls c) maxDepth 0 false = .ok schema)
    (hrecord : ((d.record entity).runIn world).1 = .ok record)
    (htakes : ∀ p ∈ d.properties, TakesProperty r p (record.field p.key)) :
    schema.validator.admits (record.renamed d s.documentIdField).toValue = true ↔
      ¬schema.Bars (record.renamed d s.documentIdField).toValue := by
  obtain ⟨limit,hlimit,_⟩ := bind_eq_ok.mp hschema
  have hlevels : levelsFrom 0 limit = limit + 1 := by
    rw [levelsFrom]
    omega
  rw [compile_expand hlimit,hlevels,expand_level] at hschema
  obtain ⟨d',hlevel⟩ := level_eq_ok.mp hschema
  cases hd.symm.trans hlevel.descriptor
  have hdistinct := Registry.merge_keys_nodup (Registry.descriptor_registered hd)
  refine hlevel.takes (expand_takes s.documentIdField limit) ?_
  rw [keptProperties_top]
  exact takesEntries_renamed (Descriptor.recordFor_keys hrecord) hdistinct htakes

/-- An exam, which may have a grade. -/
def exam : Class Value := ⟨.defined "Exam" 0 [.builtin .object], none⟩

/-- The record of an exam, with the schema that it is to meet. -/
def exams (grade : Value) : Except Error (Registry × Descriptor × Document × Record) := do
  let r ← ({} : Registry).registerProperty (.cls exam) (.str "grade")
    [("type", .type (.builtin .text)), ("enum", .list [.str "A", .str "B"]), ("optional", .bool true)]
  let d ← r.descriptor (.cls exam)
  let schema ← compile r (.ok Settings.defaults) (.cls exam) none 0 false
  let entity : Value := .object ⟨0, exam, [("id", .identifier "1"), ("grade", grade)], [], []⟩
  let record ← ((d.record entity).runIn { clock := default }).1
  return (r, d, schema, record)

/-- Whether a record has a text for every property, among its values if it has any, or nothing where it is optional. -/
def isOfTexts (d : Descriptor) (record : Record) : Bool :=
  d.properties.all fun p =>
    match p.classification, record.field p.key with
    | some (.single .identifier), .str _ => true
    | some (.single (.enumerated .string vs)), .str t => vs.any (·.sameStored (.str t))
    | _, .null => p.optional == some true
    | _, _ => false

theorem takes_texts (h : isOfTexts d record = true) : ∀ p ∈ d.properties, TakesProperty r p (record.field p.key) := by
  intro p hp
  have htext := List.all_eq_true.mp h p hp
  split at htext
  · rename_i hk hv
    rw [hv]
    exact .single hk (.identifier trivial)
  · rename_i hk hv
    rw [hv]
    exact .single hk (.enumerated trivial htext)
  · rename_i hv
    rw [hv]
    exact .unset (beq_iff_eq.mp htext)
  · cases htext

theorem validator_takes_records_graded : ∃ r d schema record, exams (.str "A") = .ok (r, d, schema, record) ∧
    (∀ p ∈ d.properties, TakesProperty r p (record.field p.key)) ∧
    schema.validator.admits (record.renamed d "_id").toValue = true ∧
    ¬schema.Bars (record.renamed d "_id").toValue := by
  have hok : ((exams (.str "A")).toOption.any fun (_, d, schema, record) =>
      isOfTexts d record && schema.validator.admits (record.renamed d "_id").toValue) = true := by decide +kernel
  obtain ⟨⟨r,d,schema,record⟩,hexams,h⟩ := exists_ok_of_any hok
  obtain ⟨htexts,hadmits⟩ := Bool.and_eq_true_iff.mp h
  obtain ⟨r,_,h⟩ := bind_eq_ok.mp hexams
  obtain ⟨d,hd,h⟩ := bind_eq_ok.mp h
  obtain ⟨schema,hschema,h⟩ := bind_eq_ok.mp h
  obtain ⟨record,hrecord,h⟩ := bind_eq_ok.mp h
  cases pure_eq_ok.mp h
  have htakes : ∀ p ∈ d.properties, TakesProperty r p (record.field p.key) := takes_texts htexts
  have hiff := validator_takes_records hd hschema hrecord htakes
  exact ⟨r,d,schema,record,hexams,htakes,hadmits,hiff.mp hadmits⟩

/-- The record of an exam without a grade is one of its class, but the validator does not take it. -/
theorem validator_takes_records_ungraded : ∃ r d schema record, exams .null = .ok (r, d, schema, record) ∧
    (∀ p ∈ d.properties, TakesProperty r p (record.field p.key)) ∧
    schema.validator.admits (record.renamed d "_id").toValue = false := by
  have hok : ((exams .null).toOption.any fun (_, d, schema, record) =>
      isOfTexts d record && !schema.validator.admits (record.renamed d "_id").toValue) = true := by decide +kernel
  obtain ⟨⟨r,d,schema,record⟩,hexams,h⟩ := exists_ok_of_any hok
  obtain ⟨htexts,hadmits⟩ := Bool.and_eq_true_iff.mp h
  exact ⟨r,d,schema,record,hexams,takes_texts htexts,by simpa using hadmits⟩

end Document

end Trischema
