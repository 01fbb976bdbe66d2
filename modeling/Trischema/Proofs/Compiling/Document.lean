import Trischema.Document.Compiling
import Trischema.Proofs.Registry.LeftOut

/-!
Document schemas of classes that are alike. What is exported of a schema depends on its fields through a view
of them, with the exports of nested schemas and defaults as they are exported.
-/

namespace Trischema

namespace FieldShape

variable {σ τ : Type}

def map (f : σ → τ) : FieldShape σ → FieldShape τ
  | scalar s => scalar s
  | scalars s => scalars s
  | nested schema => nested (f schema)
  | nestedArray schema => nestedArray (f schema)
  | references target => references target

end FieldShape

namespace Field

/-- A field with the exports of what is nested in it, and its default as it is exported. -/
def view (f : Field Document) : Field Value where
  name := f.name
  shape := f.shape.map Document.toRecord
  enum := f.enum
  unique := f.unique
  optional := f.optional
  default := f.default.map Value.rendered
  isIdentifier := f.isIdentifier

/-- The entry of a field in the export of its schema. -/
def entry (f : Field Value) : String × Value :=
  (f.name, .record (
    [("type", .str f.shape.typeText)]
      ++ optionalEntry "items" .str f.shape.itemsText?
      ++ (match f.shape with
          | .nested v => [("schema", v)]
          | .nestedArray v => [("schema", v)]
          | _ => [])
      ++ optionalEntry "enum" .list f.enum
      ++ optionalEntry "unique" .bool f.unique
      ++ optionalEntry "optional" .bool f.optional
      ++ optionalEntry "default" id f.default
      ++ flagEntry "is_identifier" f.isIdentifier
      ++ optionalEntry "ref" .str f.shape.target?))

end Field

namespace Document

theorem fieldRecords_eq (fields : List (Field Document)) : fieldRecords fields = fields.map fun f => f.view.entry := by
  induction fields with
  | nil => rfl
  | cons f fields ih =>
    obtain ⟨name,shape,enum,unique,optional,default,isIdentifier⟩ := f
    cases shape <;> cases default <;> simp only [fieldRecords,ih,List.map_cons] <;> rfl

variable {r r' : Registry} {c c' : Class Value} {nest nest' : Class Value → Except Error Document}
  {idField : String}

/-- Whether nested classes have schemas that are exported alike. -/
def NestAlike (r r' : Registry) (nest nest' : Class Value → Except Error Document) : Prop :=
  ∀ e e', r.ElementSame r' (.embedded e) (.embedded e') → (nest e).map toRecord = (nest' e').map toRecord

theorem shapeOf_single {e : Element} (h : e.scalar?.isSome = true) {p : Property} :
    shapeOf r nest c p (.single e) = .ok (.scalar (e.scalar?.getD .string)) := by
  cases e with
  | embedded _ => cases h
  | _ => rfl

theorem shapeOf_array {e : Element} (h : e.scalar?.isSome = true) {p : Property} :
    shapeOf r nest c p (.array e) = .ok (.scalars (e.scalar?.getD .string)) := by
  cases e with
  | embedded _ => cases h
  | _ => rfl

theorem shapeOf_alike (hnest : NestAlike r r' nest nest') {p p' : Property} (hkey : p.key = p'.key)
    {k k' : Classification} (h : r.ClassificationAlike r' c c' p.key k k') :
    (shapeOf r nest c p k).map (FieldShape.map toRecord) =
      (shapeOf r' nest' c' p' k').map (FieldShape.map toRecord) := by
  have hnested (x : Except Error Document) :
      (x.map FieldShape.nested).map (FieldShape.map toRecord) = (x.map toRecord).map .nested := by
    cases x <;> rfl
  have harray (x : Except Error Document) :
      (x.map FieldShape.nestedArray).map (FieldShape.map toRecord) = (x.map toRecord).map .nestedArray := by
    cases x <;> rfl
  cases h with
  | single h =>
    cases h with
    | plain hplain hscalar _ => rw [shapeOf_single hplain,shapeOf_single (hscalar ▸ hplain),hscalar]
    | @embedded e e' hplaced hname hentity =>
      simp only [shapeOf,hnested,hnest e e' (.embedded hplaced hname hentity)]
  | array h =>
    cases h with
    | plain hplain hscalar _ => rw [shapeOf_array hplain,shapeOf_array (hscalar ▸ hplain),hscalar]
    | @embedded e e' hplaced hname hentity =>
      simp only [shapeOf,harray,hnest e e' (.embedded hplaced hname hentity)]
  | @relationship rel rel' h =>
    have hreference (r : Registry) (x : Except Error (Class Value)) :
        (x.map fun d => FieldShape.references (r.nameOf d)).map (FieldShape.map toRecord) =
          (x.map r.nameOf).map .references := by
      cases x <;> rfl
    simp only [shapeOf,hreference,← hkey,h.resolve]

theorem fieldOf_alike (hnest : NestAlike r r' nest nest') {p p' : Property} (h : r.PropertyAlike r' c c' p p')
    (name : String) :
    (fieldOf r nest c name p).map Field.view = (fieldOf r' nest' c' name p').map Field.view := by
  obtain ⟨k,k',hk,hk',hclass⟩ := h.classification
  have hshape := shapeOf_alike hnest h.key hclass
  simp only [fieldOf,hk,hk',map_bind_eq]
  refine bind_eq_of_map_eq hshape fun shape shape' hsame => ?_
  refine congrArg Except.ok ?_
  simp only [Field.view,hsame,hclass.values?,h.unique,h.optional,h.isIdentifier,Field.mk.injEq,true_and,and_true]
  cases p'.isIdentifier with
  | false => exact h.default
  | true =>
    have hdefault := h.default
    revert hdefault
    cases p.default <;> cases p'.default <;> intro hdefault
    · rfl
    · cases hdefault
    · cases hdefault
    · exact hdefault

theorem fieldsOf_eq (kept : List (String × Property)) :
    fieldsOf r nest c kept = kept.mapM fun entry => fieldOf r nest c entry.1 entry.2 := by
  induction kept with
  | nil => rfl
  | cons entry kept ih => rw [fieldsOf,ih,List.mapM_cons]

theorem fieldsOf_alike (hnest : NestAlike r r' nest nest') {kept kept' : List (String × Property)}
    (h : r.KeptAlike r' c c' kept kept') :
    (fieldsOf r nest c kept).map (List.map Field.view) = (fieldsOf r' nest' c' kept').map (List.map Field.view) := by
  rw [fieldsOf_eq,fieldsOf_eq]
  refine mapM_map_eq (h.imp ?_)
  rintro ⟨name,p⟩ ⟨_,p'⟩ ⟨rfl,hp⟩
  exact fieldOf_alike hnest hp name

variable {d d' : Descriptor}

theorem keepsId_alike (h : r.ClassAlike r' d d') {embedded : Bool}
    (hentity : embedded = true → d.cls.isA .entity = d'.cls.isA .entity) : keepsId d embedded = keepsId d' embedded := by
  have hidentifier : d.identifier?.isSome = d'.identifier?.isSome := by
    rcases find?_of_forall₂ h.properties fun p p' hp => hp.isIdentifier with ⟨hnone,hnone'⟩ | ⟨p,p',hp,hp',_⟩
    · rw [Descriptor.identifier?,hnone,Descriptor.identifier?,hnone']
    · rw [Descriptor.identifier?,hp,Descriptor.identifier?,hp']
      rfl
  rw [keepsId,keepsId,hidentifier]
  cases embedded with
  | false => rfl
  | true => rw [hentity rfl]

theorem keptProperties_alike (h : r.ClassAlike r' d d') (idField : String) (keepId : Bool) :
    r.KeptAlike r' d.cls d'.cls (keptProperties d keepId idField) (keptProperties d' keepId idField) := by
  refine List.rel_map ?_ (List.rel_filter ?_ h.properties)
  · intro p p' hp
    refine ⟨?_,hp⟩
    dsimp only
    rw [hp.isIdentifier,hp.key]
  · intro p p' hp
    dsimp only
    rw [hp.isIdentifier]

/-- A level of the schemas of classes in one place is exported alike where the levels below it are. -/
theorem expand_succ (h : r.Alike r') {levels : Nat}
    (hnest : NestAlike r r' (expand r idField levels true) (expand r' idField levels true))
    (hplaced : (c, c') ∈ r.sortedClasses.zip r'.sortedClasses) {embedded : Bool}
    (hentity : embedded = true → c.isA .entity = c'.isA .entity) :
    (expand r idField (levels + 1) embedded c).map toRecord = (expand r' idField (levels + 1) embedded c').map toRecord := by
  obtain ⟨d,d',hd,hd',rfl,rfl,halike⟩ := h.descriptor hplaced
  have hkeep := keepsId_alike halike hentity
  have hkept := keptProperties_alike halike idField (keepsId d' embedded)
  have hfields := fieldsOf_alike hnest hkept
  rw [expand,expand,hd,hd']
  change (fieldsOf r _ d.cls _ >>= _).map toRecord = (fieldsOf r' _ d'.cls _ >>= _).map toRecord
  rw [map_bind_eq,map_bind_eq,hkeep]
  refine bind_eq_of_map_eq hfields fun fields fields' hsame => ?_
  refine congrArg Except.ok ?_
  have hrecords : fieldRecords fields = fieldRecords fields' := by
    have hentries := congrArg (List.map Field.entry) hsame
    rw [fieldRecords_eq,fieldRecords_eq]
    rwa [List.map_map,List.map_map] at hentries
  rw [toRecord,toRecord,hrecords,halike.name,halike.together,hkept.renaming]

theorem expand_unregistered (hunknown : r.isRegistered c = false) {levels : Nat} {embedded : Bool} :
    expand r idField (levels + 1) embedded c = .error (.missing (.metadata c.name.text)) := by
  rw [expand,r.descriptor_of_unregistered hunknown]
  rfl

/-- The schemas of nested classes are exported alike. -/
theorem expand_nested (h : r.Alike r') (levels : Nat) :
    NestAlike r r' (expand r idField levels true) (expand r' idField levels true) := by
  induction levels with
  | zero =>
    intro e e' he
    cases he with
    | plain hplain _ _ => cases hplain
    | embedded _ hname _ => rw [expand,expand,hname]
  | succ levels ih =>
    intro e e' he
    cases he with
    | plain hplain _ _ => cases hplain
    | embedded hplaced hname hentity =>
      rcases hplaced with hplaced | ⟨hunknown,hunknown'⟩
      · exact expand_succ h ih hplaced fun _ => hentity
      · rw [expand_unregistered hunknown,expand_unregistered hunknown',hname]

theorem compile_class (settings : Except Error Settings) (maxDepth : Option Int) :
    compile r settings (.cls c) maxDepth 0 false =
      match Settings.limit settings maxDepth, settings with
      | .error e, _ | .ok _, .error e => .error e
      | .ok limit, .ok s => expand r s.documentIdField (limit + 1) false c := by
  rw [compile]
  cases Settings.limit settings maxDepth with
  | error e => rfl
  | ok limit =>
    have hlevels : levelsFrom 0 limit = limit + 1 := by
      rw [levelsFrom]
      omega
    cases settings with
    | error e => rfl
    | ok s =>
      change expand r s.documentIdField (levelsFrom 0 limit) false c = _
      rw [hlevels]

/-- Document schemas of classes in one place are exported alike. -/
theorem compile_alike (h : r.Alike r') (hplaced : (c, c') ∈ r.sortedClasses.zip r'.sortedClasses)
    (settings : Except Error Settings) (maxDepth : Option Int) :
    (compile r settings (.cls c) maxDepth 0 false).map toRecord =
      (compile r' settings (.cls c') maxDepth 0 false).map toRecord := by
  rw [compile_class,compile_class]
  cases Settings.limit settings maxDepth with
  | error e => rfl
  | ok limit =>
    cases settings with
    | error e => rfl
    | ok s => exact expand_succ h (expand_nested h limit) hplaced fun hembedded => by cases hembedded

end Document

end Trischema
