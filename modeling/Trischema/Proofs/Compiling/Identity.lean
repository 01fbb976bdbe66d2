import Trischema.Document.Validator
import Trischema.Proofs.Compiling.Expansion

/-!
The identifiers of document schemas. At every depth a schema keeps the identifier of its class or leaves it out, by its
place and by the base of the class, and what it keeps is the one field that identifies its documents.
-/

namespace Trischema

/-- Composite keys are made of the names that are stored. -/
theorem Renaming.groups_subset {names : Renaming} {together : List (List String)} {group : List String}
    (h : group ∈ names.groups together) : group ⊆ names.map (·.2) := by
  obtain ⟨keys,hkeys,rfl⟩ := List.mem_map.mp h
  have hcovered := (List.mem_filter.mp hkeys).2
  intro name hname
  obtain ⟨key,hkey,rfl⟩ := List.mem_map.mp hname
  obtain ⟨name,hname⟩ := Option.isSome_iff_exists.mp (List.all_eq_true.mp hcovered key hkey)
  rw [apply,hname]
  exact List.mem_map.mpr ⟨_,mem_of_lookup hname,rfl⟩

namespace Document

variable {r : Registry} {nest : Class Value → Except Error Document} {c : Class Value} {d : Descriptor}
  {idField : String} {embedded : Bool} {doc schema : Document} {f : Field Document}

/-- Whether the validator of a schema, as a document store reads it, requires a field. -/
def Requires (schema : Document) (name : String) : Prop :=
  ∃ rules names, schema.toJsonSchema = .record [("$jsonSchema", .record rules)] ∧
    rules.lookup "required" = some (.texts names) ∧ name ∈ names

theorem requires_of_isRequired (hf : f ∈ schema.fields) (hrequired : f.isRequired = true) : schema.Requires f.name := by
  obtain ⟨_,fields,_,_,_,_⟩ := schema
  have hmem : f.name ∈ (fields.filter (·.isRequired)).map (·.name) :=
    List.mem_map.mpr ⟨f,List.mem_filter.mpr ⟨hf,hrequired⟩,rfl⟩
  refine ⟨_,_,by rw [toJsonSchema,validator,Validator.toRecord],?_,hmem⟩
  rw [if_neg fun hempty => by rw [List.isEmpty_iff.mp hempty] at hmem; cases hmem]
  rfl

/-- The field that identifies the documents of a schema. -/
structure IdentifiedBy (schema : Document) (f : Field Document) : Prop where
  only : schema.fields.filter (·.isIdentifier) = [f]
  name : f.name = schema.idField
  unique : f.unique = some true
  default : f.default.isSome = true
  required : schema.Requires f.name

theorem Level.fieldNames (h : Level r idField nest embedded c d schema) :
    (keptProperties d (keepsId d embedded) idField).map (·.1) = schema.fieldNames := by
  refine map_eq_of_forall₂ h.fields fun entry f hf => ?_
  obtain ⟨_,_,_,_,rfl⟩ := fieldOf_eq_ok.mp hf
  rfl

theorem Level.together_subset (h : Level r idField nest embedded c d schema) :
    ∀ group ∈ schema.together, group ⊆ schema.fieldNames := by
  intro group hgroup
  rw [h.together] at hgroup
  have hsubset := Renaming.groups_subset hgroup
  rw [List.map_map] at hsubset
  rw [← h.fieldNames]
  exact hsubset

/-- What is kept of a class that keeps its identifier has one entry for it, under the name of identifiers. -/
theorem keptProperties_identifier (idField : String) (hmerge : r.merge c = .ok d) (hkeeps : keepsId d embedded = true) :
    ∃ p, p.isIdentifier = true ∧
      (keptProperties d (keepsId d embedded) idField).filter (·.2.isIdentifier) = [(idField, p)] := by
  obtain ⟨p,hp⟩ : ∃ p, d.identifiers = [p] := by
    have hlength := (Registry.merge_identifiers_length hmerge).1
    have hsome := (Bool.and_eq_true_iff.mp hkeeps).1
    rw [Descriptor.identifier?_eq_head?,List.isSome_head?] at hsome
    have hpos := List.length_pos_iff.mpr hsome
    exact List.length_eq_one_iff.mp (by omega)
  have hid : p.isIdentifier = true := (List.mem_filter.mp (hp ▸ List.mem_singleton_self p : p ∈ d.identifiers)).2
  refine ⟨p,hid,?_⟩
  have hall : d.properties.filter (fun p => keepsId d embedded || !p.isIdentifier) = d.properties := by
    rw [hkeeps]
    exact List.filter_true d.properties
  rw [keptProperties,hall,List.filter_map]
  change d.identifiers.map _ = _
  rw [hp,List.map_singleton,if_pos hid]

/-- A level that keeps the identifier has one field for it, and any other level has none. -/
theorem Level.identified (h : Level r idField nest embedded c d schema) :
    (keepsId d embedded = true → ∃ f, schema.IdentifiedBy f) ∧
    (keepsId d embedded = false → ∀ f ∈ schema.fields, f.isIdentifier = false) := by
  have hflag (entry : String × Property) (f : Field Document) (hf : fieldOf r nest c entry.1 entry.2 = .ok f) :
      f.isIdentifier = entry.2.isIdentifier := by
    obtain ⟨_,_,_,_,rfl⟩ := fieldOf_eq_ok.mp hf
    rfl
  constructor
  · intro hkeeps
    obtain ⟨p,hid,hone⟩ :=
      keptProperties_identifier idField (Registry.descriptor_registered h.descriptor) hkeeps
    have hfields := List.rel_filter (p := fun entry => entry.2.isIdentifier) (q := (·.isIdentifier))
      (fun entry f hf => by dsimp only; rw [hflag entry f hf]) h.fields
    rw [hone] at hfields
    obtain ⟨f,rest,hfield,hrest,hcons⟩ := List.forall₂_cons_left_iff.mp hfields
    rw [List.forall₂_nil_left_iff.mp hrest] at hcons
    have hmem : f ∈ schema.fields := (List.mem_filter.mp (hcons ▸ List.mem_singleton_self f)).1
    have hidentifies : f.isIdentifier = true := (hflag _ f hfield).trans hid
    obtain ⟨k,shape,_,_,hf⟩ := fieldOf_eq_ok.mp hfield
    have hname : f.name = idField := by rw [hf]; rfl
    have hunique : f.unique = some true := by rw [hf,fieldWith,hid]; rfl
    have hdefault : f.default.isSome = true := by
      rw [hf,fieldWith,hid]
      cases p.default <;> rfl
    refine ⟨f,hcons,hname.trans h.idField.symm,hunique,hdefault,requires_of_isRequired hmem ?_⟩
    rw [Field.isRequired,hidentifies,Bool.true_or]
  · intro hdrops f hf
    obtain ⟨entry,hentry,hfield⟩ := exists_left_of_forall₂ h.fields hf
    obtain ⟨p,hp,rfl⟩ := List.mem_map.mp hentry
    have hother := (List.mem_filter.mp hp).2
    rw [hdrops,Bool.false_or,Bool.not_eq_true'] at hother
    exact (hflag _ f hfield).trans hother

theorem Level.hasId_iff (h : Level r idField nest embedded c d schema) :
    schema.hasId = true ↔ d.identifier?.isSome = true ∧ (embedded = true → c.isA .entity = true) := by
  obtain ⟨_,hmerged⟩ := Registry.merge_cases (Registry.descriptor_registered h.descriptor)
  rw [h.hasId,keepsId,hmerged.cls]
  cases embedded <;> simp

/-- The class at a path is embedded exactly where the path goes down, or where the class it starts from is. -/
theorem classAt?_embedded {path : List Nat} {embedded' : Bool} {c' : Class Value}
    (h : classAt? r idField embedded c path = some (embedded', c')) : embedded' = (embedded || !path.isEmpty) := by
  induction path generalizing embedded c with
  | nil =>
    cases h
    rw [List.isEmpty_nil,Bool.not_true,Bool.or_false]
  | cons i path ih =>
    rw [classAt?] at h
    obtain ⟨_,_,h⟩ := Option.bind_eq_some_iff.mp h
    obtain ⟨e,_,h⟩ := Option.bind_eq_some_iff.mp h
    rw [ih h,List.isEmpty_cons,Bool.true_or,Bool.not_false,Bool.or_true]

/-- What holds of the identifier of every schema, be it that of a class or what stands for one. -/
structure KeepsIdentity (schema : Document) : Prop where
  hasId : schema.hasId = true ↔ ∃ f, schema.IdentifiedBy f
  noId : schema.hasId = false → ∀ f ∈ schema.fields, f.isIdentifier = false
  together : ∀ group ∈ schema.together, group ⊆ schema.fieldNames

/-- A schema of nothing, as that of no class, and what stands for a class. -/
structure IsBare (schema : Document) : Prop where
  fields : schema.fields = []
  hasId : schema.hasId = false
  together : schema.together = []

theorem isBare_empty : (empty idField).IsBare := ⟨rfl,rfl,rfl⟩

theorem isBare_placeholder (name : String) : (placeholder name idField).IsBare := ⟨rfl,rfl,rfl⟩

namespace IsBare

theorem at? {path : List Nat} (h : doc.IsBare) (hat : doc.at? path = some schema) : schema = doc := by
  cases path with
  | nil => exact (Option.some.inj hat).symm
  | cons i path =>
    rw [Document.at?,h.fields] at hat
    cases hat

theorem keepsIdentity (h : schema.IsBare) : schema.KeepsIdentity where
  hasId := by
    rw [h.hasId]
    refine iff_of_false Bool.false_ne_true fun ⟨f,hf⟩ => ?_
    have honly := hf.only
    rw [h.fields] at honly
    cases honly
  noId _ := by
    rw [h.fields]
    exact List.forall_mem_nil _
  together := by
    rw [h.together]
    exact List.forall_mem_nil _

end IsBare

theorem Level.keepsIdentity (h : Level r idField nest embedded c d schema) : schema.KeepsIdentity where
  hasId := by
    rw [h.hasId]
    refine ⟨h.identified.1,fun ⟨f,hf⟩ => ?_⟩
    by_contra hdrops
    have hmem : f ∈ schema.fields.filter (·.isIdentifier) := hf.only ▸ List.mem_singleton_self f
    have hidentifies := (List.mem_filter.mp hmem).2
    rw [h.identified.2 (by simpa using hdrops) f (List.mem_filter.mp hmem).1] at hidentifies
    cases hidentifies
  noId hid := h.identified.2 (h.hasId ▸ hid)
  together := h.together_subset

/-- What is no class has the schema of nothing, or one that stands for it past the limit. -/
theorem compile_bare {s : Settings} {t : TypeExpr Value} {maxDepth : Option Int} {depth : Int}
    (h : compile r (.ok s) t maxDepth depth embedded = .ok doc) (ht : t.class? = none) :
    doc.IsBare ∧ doc.idField = s.documentIdField := by
  obtain ⟨limit,_,hdoc⟩ := bind_eq_ok.mp h
  rw [ok_bind] at hdoc
  cases t with
  | cls c => cases ht
  | absent =>
    cases hdoc
    exact ⟨isBare_empty,rfl⟩
  | _ =>
    dsimp only at hdoc
    split at hdoc
    · obtain ⟨name,_,hdoc⟩ := bind_eq_ok.mp hdoc
      cases hdoc
      exact ⟨isBare_placeholder name,rfl⟩
    · cases hdoc

/-- At every depth a schema has an identifier just where one field, and no other, identifies its documents, is unique,
has a default and is required; composite keys are made of fields. At the top it has one where the class has, and further
down where, besides, the class is an entity; what stands for a class past the limit has neither identifier nor fields. -/
theorem identity_everywhere {s : Settings} {t : TypeExpr Value} {maxDepth : Option Int} {depth : Int} {path : List Nat}
    (h : compile r (.ok s) t maxDepth depth embedded = .ok doc) (hat : doc.at? path = some schema) :
    schema.idField = s.documentIdField ∧ schema.KeepsIdentity ∧
    (schema.isPlaceholder = true → schema.hasId = false ∧ schema.fields = []) ∧
    ∀ c, t = .cls c → schema.isPlaceholder = false → ∃ embedded' c' d,
      classAt? r s.documentIdField embedded c path = some (embedded', c') ∧ r.descriptor (.cls c') = .ok d ∧
      (path = [] → c' = c ∧ (embedded = false → (schema.hasId = true ↔ d.identifier?.isSome = true))) ∧
      (path ≠ [] → (schema.hasId = true ↔ c'.isA .entity = true ∧ d.identifier?.isSome = true)) := by
  cases ht : t.class? with
  | none =>
    obtain ⟨hbare,hname⟩ := compile_bare h ht
    cases hbare.at? hat
    refine ⟨hname,hbare.keepsIdentity,fun _ => ⟨hbare.hasId,hbare.fields⟩,fun c hc => ?_⟩
    rw [hc] at ht
    cases ht
  | some c =>
    cases t with
    | cls c =>
      obtain ⟨limit,hlimit,_⟩ := bind_eq_ok.mp h
      rw [compile_expand hlimit] at h
      obtain ⟨_,embedded',c',hclass,hschema⟩ := expand_at h hat
      cases hlevels : levelsFrom depth limit - path.length with
      | zero =>
        rw [hlevels] at hschema
        cases hschema
        have hbare : (placeholder c'.name.text s.documentIdField).IsBare := isBare_placeholder c'.name.text
        exact ⟨rfl,hbare.keepsIdentity,fun _ => ⟨rfl,rfl⟩,fun _ _ hwhole => by cases hwhole⟩
      | succ levels =>
        rw [hlevels,expand_level] at hschema
        obtain ⟨d,hlevel⟩ := level_eq_ok.mp hschema
        refine ⟨hlevel.idField,hlevel.keepsIdentity,fun hplaceholder => ?_,fun c₀ hc₀ _ => ?_⟩
        · rw [hlevel.isPlaceholder] at hplaceholder
          cases hplaceholder
        · cases hc₀
          have hdown := classAt?_embedded hclass
          refine ⟨embedded',c',d,hclass,hlevel.descriptor,?_,fun hpath => ?_⟩
          · rintro rfl
            cases hclass
            refine ⟨rfl,fun htop => ?_⟩
            rw [hlevel.hasId_iff,htop]
            exact and_iff_left fun hembedded => by cases hembedded
          · rw [List.isEmpty_eq_false_iff.mpr hpath,Bool.not_false,Bool.or_true] at hdown
            rw [hlevel.hasId_iff,hdown]
            exact ⟨fun ⟨hid,hentity⟩ => ⟨hentity rfl,hid⟩,fun ⟨hentity,hid⟩ => ⟨hid,fun _ => hentity⟩⟩
    | _ => cases ht

/-- The owner of a pet, which is an entity. -/
def owner : Class Value := ⟨.defined "Owner" 0 [.builtin .entity, .builtin .object], none⟩

/-- The place of a pet, which is none. -/
def spot : Class Value := ⟨.defined "Spot" 1 [.builtin .object], none⟩

def pet : Class Value := ⟨.defined "Pet" 2 [.builtin .entity, .builtin .object], none⟩

/-- Pets with their owners and places, and the schema of pets. -/
def pets : Except Error (Registry × Document) := do
  let r ← ({} : Registry).registerProperty (.cls spot) (.str "x") [("type", .type (.builtin .real))]
  let r ← r.registerProperty (.cls owner) (.str "name") [("type", .type (.builtin .text))]
  let r ← r.registerProperty (.cls pet) (.str "owner") [("type", .type (.cls owner))]
  let r ← r.registerProperty (.cls pet) (.str "spot") [("type", .type (.cls spot))]
  let doc ← compile r (.ok Settings.defaults) (.cls pet) none 0 false
  return (r, doc)

/-- The documents of pets and of their owners have an identifier, and those of their places have none. -/
theorem identity_everywhere_pets : ∃ r doc ownerOf spotOf, pets = .ok (r, doc) ∧ doc.at? [3] = some ownerOf ∧
    doc.at? [4] = some spotOf ∧ (∃ f, doc.IdentifiedBy f) ∧ (∃ f, ownerOf.IdentifiedBy f) ∧
    spotOf.hasId = false ∧ ∀ f ∈ spotOf.fields, f.isIdentifier = false := by
  have hok : (pets.toOption.any fun (_, doc) =>
      doc.hasId && (doc.at? [3]).any (·.hasId) && (doc.at? [4]).any (!·.hasId)) = true := by decide +kernel
  obtain ⟨⟨r,doc⟩,hpets,hids⟩ := exists_ok_of_any hok
  obtain ⟨hids,hspot⟩ := Bool.and_eq_true_iff.mp hids
  obtain ⟨htop,howner⟩ := Bool.and_eq_true_iff.mp hids
  obtain ⟨ownerOf,howner,hownerId⟩ := (Option.any_eq_true _ _).mp howner
  obtain ⟨spotOf,hspot,hspotId⟩ := (Option.any_eq_true _ _).mp hspot
  rw [Bool.not_eq_true'] at hspotId
  have hdoc : compile r (.ok Settings.defaults) (.cls pet) none 0 false = .ok doc := by
    obtain ⟨r₁,hr₁,hpets⟩ := bind_eq_ok.mp hpets
    obtain ⟨r₂,hr₂,hpets⟩ := bind_eq_ok.mp hpets
    obtain ⟨r₃,hr₃,hpets⟩ := bind_eq_ok.mp hpets
    obtain ⟨r₄,hr₄,hpets⟩ := bind_eq_ok.mp hpets
    obtain ⟨doc',hdoc,hpets⟩ := bind_eq_ok.mp hpets
    cases pure_eq_ok.mp hpets
    exact hdoc
  have hroot : doc.at? [] = some doc := rfl
  obtain ⟨_,hidentity,_⟩ := identity_everywhere hdoc hroot
  obtain ⟨_,hidentityOwner,_⟩ := identity_everywhere hdoc howner
  obtain ⟨_,hidentitySpot,_⟩ := identity_everywhere hdoc hspot
  exact ⟨r,doc,ownerOf,spotOf,hpets,howner,hspot,hidentity.hasId.mp htop,hidentityOwner.hasId.mp hownerId,hspotId,
    hidentitySpot.noId hspotId⟩

end Document

end Trischema
