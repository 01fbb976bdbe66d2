import Trischema.Proofs.Compiling.Document
import Trischema.Proofs.Registry.Identifiers

/-!
How far document schemas are expanded. One level of a schema is made of the schemas of the classes that are embedded
in its class; levels end at the limit, and a higher limit changes nothing above the one before it.
-/

namespace Trischema

/-- The class that is embedded in a property, alone or in an array. -/
def Classification.embedded? : Classification → Option (Class Value)
  | .single (.embedded e) | .array (.embedded e) => some e
  | _ => none

def Property.embedded? (p : Property) : Option (Class Value) := p.classification.bind Classification.embedded?

namespace Document

variable {r : Registry} {nest nest' : Class Value → Except Error Document} {c : Class Value} {p : Property}
  {idField name : String} {embedded : Bool} {doc schema : Document}

/-- The shapes of the properties of each classification. -/
inductive Shaped (r : Registry) (nest : Class Value → Except Error Document) (c : Class Value) (p : Property) :
    Classification → FieldShape Document → Prop
  | scalar {e : Element} {s : Scalar} (hs : e.scalar? = some s) : Shaped r nest c p (.single e) (.scalar s)
  | scalars {e : Element} {s : Scalar} (hs : e.scalar? = some s) : Shaped r nest c p (.array e) (.scalars s)
  | nested {e : Class Value} {schema : Document} (hschema : nest e = .ok schema) :
    Shaped r nest c p (.single (.embedded e)) (.nested schema)
  | nestedArray {e : Class Value} {schema : Document} (hschema : nest e = .ok schema) :
    Shaped r nest c p (.array (.embedded e)) (.nestedArray schema)
  | references {rel : Relationship Value} {d : Class Value} (hd : r.resolve c p.key rel = .ok d) :
    Shaped r nest c p (.relationship rel) (.references (r.nameOf d))

theorem shapeOf_eq_ok {k : Classification} {shape : FieldShape Document} :
    shapeOf r nest c p k = .ok shape ↔ Shaped r nest c p k shape := by
  constructor
  · intro h
    match k with
    | .relationship rel =>
      obtain ⟨d,hd,rfl⟩ := map_eq_ok.mp h
      exact .references hd
    | .single (.embedded e) =>
      obtain ⟨schema,hschema,rfl⟩ := map_eq_ok.mp h
      exact .nested hschema
    | .array (.embedded e) =>
      obtain ⟨schema,hschema,rfl⟩ := map_eq_ok.mp h
      exact .nestedArray hschema
    | .single (.primitive _) | .single .identifier | .single (.enumerated ..) =>
      cases h
      exact .scalar rfl
    | .array (.primitive _) | .array .identifier | .array (.enumerated ..) =>
      cases h
      exact .scalars rfl
  · intro h
    cases h with
    | scalar hs => rw [shapeOf_single (by rw [hs]; rfl),hs]; rfl
    | scalars hs => rw [shapeOf_array (by rw [hs]; rfl),hs]; rfl
    | nested hschema => exact map_eq_ok.mpr ⟨_,hschema,rfl⟩
    | nestedArray hschema => exact map_eq_ok.mpr ⟨_,hschema,rfl⟩
    | references hd => exact map_eq_ok.mpr ⟨_,hd,rfl⟩

/-- What a field holds has a schema in it exactly where a class is embedded, and it is the schema of that class. -/
theorem Shaped.embeds {k : Classification} {shape : FieldShape Document} (h : Shaped r nest c p k shape) :
    Option.Rel (fun e nested => nest e = .ok nested) k.embedded? shape.nested? := by
  cases h with
  | @scalar e _ hs | @scalars e _ hs =>
    cases e with
    | embedded _ => cases hs
    | _ => exact .none
  | nested hschema | nestedArray hschema => exact .some hschema
  | references _ => exact .none

theorem Shaped.map {g : Document → Document} {k : Classification} {shape : FieldShape Document}
    (h : Shaped r nest c p k shape) (hnest : ∀ e nested, nest e = .ok nested → nest' e = .ok (g nested)) :
    Shaped r nest' c p k (shape.map g) := by
  cases h with
  | scalar hs => exact .scalar hs
  | scalars hs => exact .scalars hs
  | nested hschema => exact .nested (hnest _ _ hschema)
  | nestedArray hschema => exact .nestedArray (hnest _ _ hschema)
  | references hd => exact .references hd

theorem Shaped.isNone_target {k : Classification} {shape : FieldShape Document} (h : Shaped r nest c p k shape)
    (hk : p.classification = some k) : (!p.isRelationship) = shape.target?.isNone := by
  rw [Property.isRelationship,hk]
  cases h <;> rfl

theorem shapeOf_congr {k : Classification} (hnest : ∀ e, k.embedded? = some e → nest e = nest' e) :
    shapeOf r nest c p k = shapeOf r nest' c p k := by
  match k with
  | .relationship _ => rfl
  | .single (.embedded e) => exact congrArg (Except.map _) (hnest e rfl)
  | .array (.embedded e) => exact congrArg (Except.map _) (hnest e rfl)
  | .single (.primitive _) | .single .identifier | .single (.enumerated ..) => rfl
  | .array (.primitive _) | .array .identifier | .array (.enumerated ..) => rfl

/-- The field of a property that has a given shape. -/
def fieldWith (name : String) (p : Property) (k : Classification) (shape : FieldShape Document) : Field Document where
  name
  shape
  enum := k.values?
  unique := if p.isIdentifier then some true else p.unique
  optional := p.optional
  default := if p.isIdentifier then p.default <|> some (.callable .generateId) else p.default
  isIdentifier := p.isIdentifier

theorem fieldOf_eq_ok {f : Field Document} : fieldOf r nest c name p = .ok f ↔
    ∃ k shape, p.classification = some k ∧ Shaped r nest c p k shape ∧ f = fieldWith name p k shape := by
  rw [fieldOf]
  cases p.classification with
  | none => exact iff_of_false (fun h => by cases h) (by rintro ⟨_,_,h,_⟩; cases h)
  | some k =>
    simp only [bind_eq_ok,pure_eq_ok,shapeOf_eq_ok]
    constructor
    · rintro ⟨shape,hshape,rfl⟩
      exact ⟨k,shape,rfl,hshape,rfl⟩
    · rintro ⟨_,shape,⟨⟩,hshape,rfl⟩
      exact ⟨shape,hshape,rfl⟩

theorem fieldOf_congr (hnest : ∀ e, p.embedded? = some e → nest e = nest' e) :
    fieldOf r nest c name p = fieldOf r nest' c name p := by
  rw [fieldOf,fieldOf]
  cases hk : p.classification with
  | none => rfl
  | some k =>
    dsimp only
    rw [shapeOf_congr fun e he => hnest e (by rw [Property.embedded?,hk]; exact he)]

theorem fieldsOf_eq_ok {kept : List (String × Property)} {fields : List (Field Document)} :
    fieldsOf r nest c kept = .ok fields ↔
      List.Forall₂ (fun entry f => fieldOf r nest c entry.1 entry.2 = .ok f) kept fields := by
  rw [fieldsOf_eq,mapM_eq_ok]

/-- One level of the schema of a class over the schemas of the classes that are embedded in it. -/
def level (r : Registry) (idField : String) (nest : Class Value → Except Error Document) (embedded : Bool)
    (c : Class Value) : Except Error Document := do
  let d ← r.descriptor (.cls c)
  let kept := keptProperties d (keepsId d embedded) idField
  let fields ← fieldsOf r nest c kept
  return ⟨some d.name, fields, keepsId d embedded, idField,
    Renaming.groups (kept.map fun (name, p) => (p.key, name)) d.together, false⟩

theorem expand_level (levels : Nat) :
    expand r idField (levels + 1) embedded c = level r idField (expand r idField levels true) embedded c := rfl

/-- What one level of the schema of a class is made of. -/
structure Level (r : Registry) (idField : String) (nest : Class Value → Except Error Document) (embedded : Bool)
    (c : Class Value) (d : Descriptor) (schema : Document) : Prop where
  descriptor : r.descriptor (.cls c) = .ok d
  name : schema.name = some d.name
  fields : List.Forall₂ (fun entry f => fieldOf r nest c entry.1 entry.2 = .ok f)
    (keptProperties d (keepsId d embedded) idField) schema.fields
  hasId : schema.hasId = keepsId d embedded
  together : schema.together =
    Renaming.groups ((keptProperties d (keepsId d embedded) idField).map fun (name, p) => (p.key, name)) d.together
  isPlaceholder : schema.isPlaceholder = false
  idField : schema.idField = idField

theorem level_eq_ok : level r idField nest embedded c = .ok schema ↔ ∃ d, Level r idField nest embedded c d schema := by
  simp only [level,bind_eq_ok,pure_eq_ok,fieldsOf_eq_ok]
  constructor
  · rintro ⟨d,hd,fields,hfields,rfl⟩
    exact ⟨d,hd,rfl,hfields,rfl,rfl,rfl,rfl⟩
  · rintro ⟨d,hlevel⟩
    refine ⟨d,hlevel.descriptor,schema.fields,hlevel.fields,?_⟩
    obtain ⟨name,fields,hasId,field,together,isPlaceholder⟩ := schema
    rw [Document.mk.injEq]
    exact ⟨hlevel.name.symm,rfl,hlevel.hasId.symm,hlevel.idField.symm,hlevel.together.symm,hlevel.isPlaceholder.symm⟩

/-- A level asks for nothing but the schemas of the classes that are embedded in properties. -/
theorem level_congr (hnest : ∀ d, r.descriptor (.cls c) = .ok d → ∀ p ∈ d.properties, ∀ e, p.embedded? = some e →
    nest e = nest' e) : level r idField nest embedded c = level r idField nest' embedded c := by
  rw [level,level]
  cases hd : r.descriptor (.cls c) with
  | error e => rfl
  | ok d =>
    have hfields : fieldsOf r nest c (keptProperties d (keepsId d embedded) idField) =
        fieldsOf r nest' c (keptProperties d (keepsId d embedded) idField) := by
      rw [fieldsOf_eq,fieldsOf_eq]
      refine mapM_eq_of_forall₂ (List.forall₂_same.mpr fun entry hentry => ?_)
      obtain ⟨p,hp,rfl⟩ := List.mem_map.mp hentry
      exact fieldOf_congr (hnest d hd p (List.mem_filter.mp hp).1)
    change (fieldsOf r nest c _ >>= _) = fieldsOf r nest' c _ >>= _
    rw [hfields]

theorem keptProperties_top (d : Descriptor) (idField : String) : keptProperties d (keepsId d false) idField =
    d.properties.map fun p => (if p.isIdentifier then idField else p.key, p) := by
  rw [keptProperties,List.filter_eq_self.mpr]
  intro p hp
  cases hid : p.isIdentifier with
  | false => exact Bool.or_true _
  | true =>
    have hsome : d.identifier?.isSome = true := List.find?_isSome.mpr ⟨p,hp,hid⟩
    rw [keepsId,hsome]
    rfl

theorem compile_expand {s : Settings} {maxDepth : Option Int} {limit : Nat}
    (hlimit : Settings.limit (.ok s) maxDepth = .ok limit) (depth : Int) (embedded : Bool) (c : Class Value) :
    compile r (.ok s) (.cls c) maxDepth depth embedded =
      expand r s.documentIdField (levelsFrom depth limit) embedded c := by
  rw [compile,hlimit]
  rfl

section Guard

/-- The schema that is nested at a path of positions of fields. -/
def at? : Document → List Nat → Option Document
  | schema, [] => some schema
  | schema, i :: path => (schema.fields[i]?.bind (·.shape.nested?)).bind fun nested => at? nested path

/-- The class that is embedded at a path of positions of kept properties, with whether it is embedded. -/
def classAt? (r : Registry) (idField : String) : Bool → Class Value → List Nat → Option (Bool × Class Value)
  | embedded, c, [] => some (embedded, c)
  | embedded, c, i :: path =>
    (r.descriptor (.cls c)).toOption.bind fun d =>
      ((keptProperties d (keepsId d embedded) idField)[i]?.bind (·.2.embedded?)).bind fun e => classAt? r idField true e path

theorem Level.nested {d : Descriptor} (h : Level r idField nest embedded c d schema) {i : Nat} {nested : Document}
    (hi : schema.fields[i]?.bind (·.shape.nested?) = some nested) :
    ∃ e, (keptProperties d (keepsId d embedded) idField)[i]?.bind (·.2.embedded?) = some e ∧ nest e = .ok nested := by
  obtain ⟨f,hf,hnested⟩ := Option.bind_eq_some_iff.mp hi
  obtain ⟨⟨name,p⟩,hentry,hfield⟩ := getElem?_of_forall₂ h.fields hf
  obtain ⟨k,shape,hk,hshape,rfl⟩ := fieldOf_eq_ok.mp hfield
  have hrel := hshape.embeds
  rw [show shape.nested? = some nested from hnested] at hrel
  generalize hembedded : k.embedded? = embeds at hrel
  cases hrel with
  | some hnest =>
    refine ⟨_,Option.bind_eq_some_iff.mpr ⟨_,hentry,?_⟩,hnest⟩
    rw [Property.embedded?,hk]
    exact hembedded

/-- Every schema in the expansion of a class is itself the expansion of a class, over the levels that are left there. -/
theorem expand_at {levels : Nat} {path : List Nat} (h : expand r idField levels embedded c = .ok doc)
    (hat : doc.at? path = some schema) :
    path.length ≤ levels ∧ ∃ embedded' c', classAt? r idField embedded c path = some (embedded', c') ∧
      expand r idField (levels - path.length) embedded' c' = .ok schema := by
  -- The path and the levels get shorter together, so the path is within the levels where it ends.
  induction path generalizing levels embedded c doc with
  | nil =>
    cases hat
    exact ⟨Nat.zero_le _,embedded,c,rfl,h⟩
  | cons i path ih =>
    obtain ⟨nested,hnested,hat⟩ := Option.bind_eq_some_iff.mp hat
    cases levels with
    | zero =>
      -- What stands for a class has no fields to go into.
      cases h
      cases hnested
    | succ levels =>
      obtain ⟨d,hlevel⟩ := level_eq_ok.mp h
      obtain ⟨e,he,hexpand⟩ := hlevel.nested hnested
      obtain ⟨hlength,embedded',c',hclass,hschema⟩ := ih hexpand hat
      refine ⟨Nat.succ_le_succ hlength,embedded',c',?_,?_⟩
      · rw [classAt?,hlevel.descriptor]
        change (Option.bind _ _).bind _ = _
        rw [he]
        exact hclass
      · rw [List.length_cons,Nat.add_sub_add_right]
        exact hschema

/-- Whether a schema has fields for all properties that are kept of a class, in their order and under their names, and
a schema in those, and only those, that a class is embedded in. -/
def Lists (r : Registry) (idField : String) (embedded : Bool) (c : Class Value) (schema : Document) : Prop :=
  ∃ d, r.descriptor (.cls c) = .ok d ∧ schema.name = some d.name ∧
    List.Forall₂ (fun entry f => f.name = entry.1 ∧ f.shape.nested?.isSome = entry.2.embedded?.isSome)
      (keptProperties d (keepsId d embedded) idField) schema.fields

theorem Level.lists {d : Descriptor} (h : Level r idField nest embedded c d schema) :
    Lists r idField embedded c schema := by
  refine ⟨d,h.descriptor,h.name,h.fields.imp ?_⟩
  rintro ⟨name,p⟩ f hfield
  obtain ⟨k,shape,hk,hshape,rfl⟩ := fieldOf_eq_ok.mp hfield
  refine ⟨rfl,?_⟩
  rw [Property.embedded?,hk]
  have hrel := hshape.embeds
  change shape.nested?.isSome = k.embedded?.isSome
  generalize shape.nested? = nested at hrel
  generalize k.embedded? = embeds at hrel
  cases hrel <;> rfl

/-- Compiling a class at a depth asks for the schema of a class at the next depth. -/
def Asks (r : Registry) (limit : Nat) (asking asked : Int × Class Value) : Prop :=
  asking.1 ≤ limit ∧ asked.1 = asking.1 + 1 ∧
    ∃ d p, r.descriptor (.cls asking.2) = .ok d ∧ p ∈ d.properties ∧ p.embedded? = some asked.2

/-- Asking comes to an end, whatever classes are embedded in each other. -/
theorem asks_ends {limit : Nat} {asked : Nat → Int × Class Value} (h : ∀ n, Asks r limit (asked n) (asked (n + 1))) :
    False := by
  have hdepth (n : Nat) : (asked n).1 = (asked 0).1 + n := by
    induction n with
    | zero => exact (Int.add_zero _).symm
    | succ n ih =>
      have hnext := (h n).2.1
      omega
  -- The question that is one deeper than the limit is not asked any more.
  have hlate := (h (limit + 1 - (asked 0).1).toNat).1
  have hat := hdepth (limit + 1 - (asked 0).1).toNat
  omega

theorem expand_lists {levels : Nat} (h : expand r idField levels embedded c = .ok schema) :
    (levels = 0 → schema = placeholder c.name.text idField) ∧
      (0 < levels → schema.isPlaceholder = false ∧ Lists r idField embedded c schema) := by
  cases levels with
  | zero =>
    cases h
    exact ⟨fun _ => rfl,fun h => absurd h (Nat.lt_irrefl 0)⟩
  | succ levels =>
    obtain ⟨d,hlevel⟩ := level_eq_ok.mp h
    exact ⟨fun h => absurd h (Nat.succ_ne_zero levels),fun _ => ⟨hlevel.isPlaceholder,hlevel.lists⟩⟩

/-- Compiling a class ends, at any depth, whatever classes are embedded in each other: within the limit it is one level
over what is asked for one depth further down, and nothing asks for ever. In the schema that it gives, schemas past the
limit, and only they, stand for their classes without fields, and are nested one level further than the limit at most;
those within the limit list what is kept of their classes, with a schema wherever a class is embedded. -/
theorem depth_guard {s : Settings} {maxDepth : Option Int} {limit : Nat}
    (hlimit : Settings.limit (.ok s) maxDepth = .ok limit) (depth : Int) (embedded : Bool) (c : Class Value) :
    (¬∃ asked : Nat → Int × Class Value, ∀ n, Asks r limit (asked n) (asked (n + 1))) ∧
    (depth ≤ limit → ∀ nest, (∀ e, Asks r limit (depth, c) (depth + 1, e) →
        nest e = compile r (.ok s) (.cls e) (some limit) (depth + 1) true) →
      compile r (.ok s) (.cls c) maxDepth depth embedded = level r s.documentIdField nest embedded c) ∧
    ∀ doc, compile r (.ok s) (.cls c) maxDepth depth embedded = .ok doc →
      ∀ path schema, doc.at? path = some schema →
        (path.length : Int) ≤ max 0 (limit + 1 - depth) ∧
        (schema.isPlaceholder = true ↔ limit < depth + path.length) ∧
        ∃ embedded' c', classAt? r s.documentIdField embedded c path = some (embedded', c') ∧
          if depth + path.length ≤ limit then Lists r s.documentIdField embedded' c' schema
          else schema = placeholder c'.name.text s.documentIdField := by
  have hsame : Settings.limit (.ok s) (some (limit : Int)) = .ok limit := by
    rw [Settings.limit,if_neg (by omega),Int.toNat_natCast]
  refine ⟨fun ⟨asked,hasked⟩ => asks_ends hasked,fun hwithin nest hnest => ?_,fun doc hdoc path schema hat => ?_⟩
  · have hlevels : levelsFrom depth limit = levelsFrom (depth + 1) limit + 1 := by
      rw [levelsFrom,levelsFrom]
      omega
    rw [compile_expand hlimit,hlevels,expand_level]
    refine level_congr fun d hd p hp e he => ?_
    rw [hnest e ⟨hwithin,rfl,d,p,hd,hp,he⟩,compile_expand hsame]
  · rw [compile_expand hlimit] at hdoc
    obtain ⟨hlength,embedded',c',hclass,hschema⟩ := expand_at hdoc hat
    obtain ⟨hpast,hwithin⟩ := expand_lists hschema
    have hleft : (levelsFrom depth limit : Int) = max 0 (limit + 1 - depth) := by
      rw [levelsFrom]
      omega
    refine ⟨by omega,?_,embedded',c',hclass,?_⟩
    · rcases Nat.eq_zero_or_pos (levelsFrom depth limit - path.length) with hzero | hpos
      · rw [hpast hzero]
        exact iff_of_true rfl (by omega)
      · rw [(hwithin hpos).1]
        exact iff_of_false Bool.false_ne_true (by omega)
    · split
      · exact (hwithin (by omega)).2
      · exact hpast (by omega)

/-- A tree, whose child is a tree. -/
def tree : Class Value := ⟨.defined "Tree" 0 [.builtin .valueObject, .builtin .object], none⟩

/-- What declaring the child of a tree leaves. -/
def trees : Except Error Registry :=
  ({} : Registry).registerProperty (.cls tree) (.str "child") [("type", .type (.cls tree))]

/-- The schema of trees with a limit. -/
def treesWithin (limit : Nat) : Except Error (Registry × Document) := do
  let r ← trees
  let doc ← compile r (.ok Settings.defaults) (.cls tree) (some limit) 0 false
  return (r, doc)

theorem treesWithin_ok {limit : Nat} {r : Registry} {doc : Document} (h : treesWithin limit = .ok (r, doc)) :
    trees = .ok r ∧ compile r (.ok Settings.defaults) (.cls tree) (some limit) 0 false = .ok doc := by
  obtain ⟨_,hr,h⟩ := bind_eq_ok.mp h
  obtain ⟨_,hdoc,h⟩ := bind_eq_ok.mp h
  cases pure_eq_ok.mp h
  exact ⟨hr,hdoc⟩

theorem depth_guard_tree : ∃ r doc leaf, treesWithin 1 = .ok (r, doc) ∧ doc.at? [0, 0] = some leaf ∧
    leaf.isPlaceholder = true := by
  have hok : ((treesWithin 1).toOption.any fun (_, doc) => (doc.at? [0, 0]).isSome) = true := by decide +kernel
  obtain ⟨⟨r,doc⟩,htrees,hsome⟩ := exists_ok_of_any hok
  obtain ⟨leaf,hleaf⟩ := Option.isSome_iff_exists.mp hsome
  have hlimit : Settings.limit (.ok Settings.defaults) (some 1) = .ok 1 := rfl
  obtain ⟨_,_,hnested⟩ := depth_guard (r := r) hlimit 0 false tree
  obtain ⟨_,hplaceholder,_⟩ := hnested doc (treesWithin_ok htrees).2 [0, 0] leaf hleaf
  exact ⟨r,doc,leaf,htrees,hleaf,hplaceholder.mpr (by decide)⟩

end Guard

section Refinement

/-- A schema with what is nested so many levels down replaced by what stands for its class. -/
def truncate : Nat → Document → Document
  | 0, schema => ⟨schema.name, [], false, schema.idField, [], true⟩
  | levels + 1, schema =>
    { schema with fields := schema.fields.map fun f => { f with shape := f.shape.map (truncate levels) } }

theorem nameOf_unnamed (hnames : ∀ entry ∈ r.entities, entry.2.name = none) (c : Class Value) :
    r.nameOf c = c.name.text := by
  have hnone : (r.registration c).name = none := by
    rw [Registry.registration,filed?]
    cases hfound : r.entities.find? fun entry => entry.1.name == c.name with
    | none => rfl
    | some entry => exact hnames entry (List.mem_of_find?_eq_some hfound)
  rw [Registry.nameOf,hnone]

theorem expand_named (hnames : ∀ entry ∈ r.entities, entry.2.name = none) {levels : Nat}
    (h : expand r idField levels embedded c = .ok doc) : doc.name = some c.name.text ∧ doc.idField = idField := by
  cases levels with
  | zero =>
    cases h
    exact ⟨rfl,rfl⟩
  | succ levels =>
    obtain ⟨d,hlevel⟩ := level_eq_ok.mp h
    obtain ⟨_,hmerged⟩ := Registry.merge_cases (Registry.descriptor_registered hlevel.descriptor)
    rw [hlevel.name,hmerged.name,nameOf_unnamed hnames]
    exact ⟨rfl,hlevel.idField⟩

/-- A level over schemas that are cut off is the level cut off one further down. -/
theorem Level.truncate {d : Descriptor} {levels : Nat} (h : Level r idField nest embedded c d schema)
    (hnest : ∀ e nested, nest e = .ok nested → nest' e = .ok (nested.truncate levels)) :
    Level r idField nest' embedded c d (schema.truncate (levels + 1)) where
  descriptor := h.descriptor
  name := h.name
  hasId := h.hasId
  together := h.together
  isPlaceholder := h.isPlaceholder
  idField := h.idField
  fields := by
    refine List.forall₂_map_right_iff.mpr (h.fields.imp ?_)
    rintro ⟨name,p⟩ f hfield
    obtain ⟨k,shape,hk,hshape,rfl⟩ := fieldOf_eq_ok.mp hfield
    exact fieldOf_eq_ok.mpr ⟨k,_,hk,hshape.map hnest,rfl⟩

theorem expand_truncate (hnames : ∀ entry ∈ r.entities, entry.2.name = none) {levels levels' : Nat}
    (hle : levels ≤ levels') (h : expand r idField levels' embedded c = .ok doc) :
    expand r idField levels embedded c = .ok (doc.truncate levels) := by
  induction levels generalizing levels' embedded c doc with
  | zero =>
    -- Here the one is cut off, and the other ends: both have the name of the class, under which it is registered.
    obtain ⟨hname,hfield⟩ := expand_named hnames h
    rw [expand,truncate,hname,hfield]
    rfl
  | succ levels ih =>
    obtain ⟨deeper,rfl⟩ := Nat.exists_eq_add_of_le' (Nat.zero_lt_of_lt hle)
    obtain ⟨d,hlevel⟩ := level_eq_ok.mp h
    exact level_eq_ok.mpr ⟨d,hlevel.truncate fun e nested hnested => ih (Nat.le_of_succ_le_succ hle) hnested⟩

/-- Where no class is registered under another name, a class that compiles with a limit compiles with every lower one,
to the same schema cut off one level past that limit. -/
theorem lower_limit_truncates {settings : Except Error Settings} {maxDepth maxDepth' : Option Int} {limit limit' : Nat}
    {depth : Int} (hnames : ∀ entry ∈ r.entities, entry.2.name = none)
    (hlimit : Settings.limit settings maxDepth = .ok limit) (hlimit' : Settings.limit settings maxDepth' = .ok limit')
    (hle : limit ≤ limit') (h : compile r settings (.cls c) maxDepth' depth embedded = .ok doc) :
    compile r settings (.cls c) maxDepth depth embedded = .ok (doc.truncate (limit + 1 - depth).toNat) := by
  obtain ⟨s,rfl⟩ : ∃ s, settings = .ok s := by
    obtain ⟨_,_,h⟩ := bind_eq_ok.mp h
    obtain ⟨s,hs,_⟩ := bind_eq_ok.mp h
    exact ⟨s,hs⟩
  rw [compile_expand hlimit'] at h
  rw [compile_expand hlimit]
  refine expand_truncate hnames ?_ h
  rw [levelsFrom,levelsFrom]
  omega

theorem lower_limit_truncates_tree : ∃ r doc, treesWithin 2 = .ok (r, doc) ∧
    treesWithin 1 = .ok (r, doc.truncate 2) := by
  have hok : ((treesWithin 2).toOption.any fun (r, _) => r.entities.isEmpty) = true := by decide +kernel
  obtain ⟨⟨r,doc⟩,htrees,hempty⟩ := exists_ok_of_any hok
  have hnames : ∀ entry ∈ r.entities, entry.2.name = none := by
    rw [List.isEmpty_iff.mp hempty]
    exact List.forall_mem_nil _
  obtain ⟨hr,hdoc⟩ := treesWithin_ok htrees
  have hlimit : Settings.limit (.ok Settings.defaults) (some 1) = .ok 1 := rfl
  have hlower := lower_limit_truncates hnames hlimit rfl (Nat.le_succ 1) hdoc
  refine ⟨r,doc,htrees,?_⟩
  rw [treesWithin,hr]
  change (compile r _ _ (some 1) 0 false >>= _) = _
  rw [hlower]
  rfl

end Refinement

end Document

end Trischema
