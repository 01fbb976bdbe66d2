import Trischema.Proofs.Registry.Export
import Trischema.Relational.Compiling
import Trischema.Proofs.Classifying

/-!
What the export of a registry leaves out although classes are compiled from it: which scalars, values and
classes the elements of properties are, defaults as they are given, and how links are joined, cascaded,
loaded and copied. Two registries may leave out the same.
-/

namespace Trischema

/-- Whether a choice is one of the closed set. -/
def Choice.isKnown {β α : Type} : Choice β α → Bool
  | known _ => true
  | other _ => false

namespace Registry

open Value

variable {r r' : Registry} {c c' : Class Value} {p p' : Property}

/-- Whether two classes are exported in the same place, or in none. -/
def Placed (r r' : Registry) (c c' : Class Value) : Prop :=
  (c, c') ∈ r.sortedClasses.zip r'.sortedClasses ∨ r.isRegistered c = false ∧ r'.isRegistered c' = false

/-- Elements that are the same: scalars with their values, and classes where their export, their own name and
their kind agree. -/
inductive ElementSame (r r' : Registry) : Element → Element → Prop
  | plain {e e' : Element} (hplain : e.scalar?.isSome = true) (hscalar : e.scalar? = e'.scalar?)
    (hvalues : e.values? = e'.values?) : ElementSame r r' e e'
  | embedded {c c' : Class Value} (hplaced : r.Placed r' c c') (hname : c.name.text = c'.name.text)
      (hentity : c.isA .entity = c'.isA .entity) : ElementSame r r' (.embedded c) (.embedded c')

/-- Links that are joined, cascaded and loaded alike. -/
structure JoinedSame (rel rel' : Relationship Value) : Prop where
  inverse : rel.inverse = rel'.inverse
  cascade : rel.cascade = rel'.cascade
  eager : rel.eager = rel'.eager
  joinColumn : Relational.joinColumnOf rel = Relational.joinColumnOf rel'
  joinTable : Relational.joinTableOf rel = Relational.joinTableOf rel'

/-- What the export leaves out of links. It has directions and cardinalities that are of the closed sets, and
the relational compiler leaves links without a cardinality aside. -/
structure LinkSame (rel rel' : Relationship Value) : Prop where
  direction : (rel.direction.isKnown && rel'.direction.isKnown) = false → rel.direction = rel'.direction
  cardinality : (rel.cardinality.all Choice.isKnown && rel'.cardinality.all Choice.isKnown) = false →
    rel.cardinality = rel'.cardinality
  edgeProperties : rel.edgeProperties = rel'.edgeProperties
  joined : rel.cardinality.isSome = true → JoinedSame rel rel'

/-- What the export leaves out of properties of one storage kind. -/
structure PropertySame (r r' : Registry) (p p' : Property) : Prop where
  default : p.default.map Value.rendered = p'.default.map Value.rendered
  single : ∀ e e', p.classification = some (.single e) → p'.classification = some (.single e') → r.ElementSame r' e e'
  array : ∀ e e', p.classification = some (.array e) → p'.classification = some (.array e') → r.ElementSame r' e e'
  link : ∀ rel rel', p.relationship = some rel → p'.relationship = some rel' → LinkSame rel rel'

/-- Whether the exports of two registries leave out the same, place by place. -/
def LeavesOutSame (r r' : Registry) : Prop :=
  ∀ c c' d d', (c, c') ∈ r.sortedClasses.zip r'.sortedClasses → r.merge c = .ok d → r'.merge c' = .ok d' →
    ∀ p p', (p, p') ∈ d.properties.zip d'.properties → r.PropertySame r' p p'

/-- A property leaves out what it leaves out itself, unless a class is embedded in it. -/
theorem propertySame_self (h : ∀ e, p.classification = some (.single e) ∨ p.classification = some (.array e) →
    e.scalar?.isSome = true) : r.PropertySame r' p p where
  default := rfl
  single e e' he he' := by
    cases he.symm.trans he'
    exact .plain (h e (.inl he)) rfl rfl
  array e e' he he' := by
    cases he.symm.trans he'
    exact .plain (h e (.inr he)) rfl rfl
  link rel rel' hrel hrel' := by
    cases hrel.symm.trans hrel'
    exact ⟨fun _ => rfl,fun _ => rfl,rfl,fun _ => ⟨rfl,rfl,rfl,rfl,rfl⟩⟩

theorem ofProperty_of_classify {key : String} {o : Options} {k : Classification} (h : r.classify c key o = .ok k) :
    Classification.ofProperty r.isEmbeddable o.enum o.relationship (o.type.getD .absent) = .ok k := by
  rw [classify] at h
  dsimp only at h
  split at h
  · rename_i k' hclass
    cases h
    exact hclass
  · split at h
    · cases h
    · split at h <;> cases h

/-- Merged properties are classified, as links exactly where they have one. -/
theorem merge_classified {d : Descriptor} (h : r.merge c = .ok d) (hp : p ∈ d.properties) :
    ∃ k, p.classification = some k ∧ ∀ rel, k = .relationship rel ↔ p.relationship = some rel := by
  obtain ⟨table,hmerged⟩ := merge_cases h
  obtain ⟨⟨key,o⟩,_,hproperty⟩ := exists_left_of_forall₂ (properties_ok hmerged.properties) hp
  obtain ⟨k,hk,rfl⟩ := property_ok hproperty
  refine ⟨k,rfl,fun rel => ?_⟩
  have hclass := ofProperty_of_classify hk
  rw [Classification.ofProperty.eq_def] at hclass
  split at hclass
  · rename_i rel' hrel
    cases hclass
    dsimp only
    rw [hrel,Classification.relationship.injEq,Option.some.injEq]
  · rename_i hrel
    dsimp only
    rw [hrel]
    constructor
    · rintro rfl
      exact absurd hclass Classification.ofType_ne_relationship
    · intro hnone
      cases hnone

/-- Links of one key that are exported alike and leave out the same. -/
structure LinkAlike (r r' : Registry) (c c' : Class Value) (key : String) (rel rel' : Relationship Value) : Prop where
  told : LinkTold r r' c c' key rel rel'
  same : LinkSame rel rel'

theorem LinkAlike.direction {key : String} {rel rel' : Relationship Value} (h : LinkAlike r r' c c' key rel rel') :
    rel.direction = rel'.direction := by
  obtain ⟨v,w,hv,hw,htext⟩ := h.told.direction
  have hsame := h.same.direction
  revert hv hw hsame
  cases rel.direction with
  | other _ => exact fun _ _ hsame => hsame rfl
  | known a =>
    cases rel'.direction with
    | other _ => exact fun _ _ hsame => hsame rfl
    | known b =>
      intro hv hw _
      cases hv
      cases hw
      have heq := sameText_str htext
      revert heq
      cases a <;> cases b <;> simp [Direction.text]

theorem LinkAlike.cardinality {key : String} {rel rel' : Relationship Value} (h : LinkAlike r r' c c' key rel rel') :
    rel.cardinality = rel'.cardinality := by
  obtain ⟨v,w,hv,hw,htext⟩ := h.told.cardinality
  have hsame := h.same.cardinality
  rw [Relationship.cardinalityValue] at hv hw
  revert hv hw hsame
  match rel.cardinality, rel'.cardinality with
  | none, none => exact fun _ _ _ => rfl
  | some (.other _), _ => exact fun _ _ hsame => hsame rfl
  | none, some (.other _) => exact fun _ _ hsame => hsame rfl
  | some (.known _), some (.other _) => exact fun _ _ hsame => hsame rfl
  | none, some (.known b) =>
    intro hv hw _
    cases hv
    cases hw
    exact absurd htext not_sameText_null_str
  | some (.known a), none =>
    intro hv hw _
    cases hv
    cases hw
    exact absurd htext.symm not_sameText_null_str
  | some (.known a), some (.known b) =>
    intro hv hw _
    cases hv
    cases hw
    have heq := sameText_str htext
    revert heq
    cases a <;> cases b <;> simp [Cardinality.text]

/-- Classifications that lead to the same compiled parts. -/
inductive ClassificationAlike (r r' : Registry) (c c' : Class Value) (key : String) :
    Classification → Classification → Prop
  | single {e e' : Element} (h : r.ElementSame r' e e') : ClassificationAlike r r' c c' key (.single e) (.single e')
  | array {e e' : Element} (h : r.ElementSame r' e e') : ClassificationAlike r r' c c' key (.array e) (.array e')
  | relationship {rel rel' : Relationship Value} (h : LinkAlike r r' c c' key rel rel') :
    ClassificationAlike r r' c c' key (.relationship rel) (.relationship rel')

/-- Properties that lead to the same compiled parts. -/
structure PropertyAlike (r r' : Registry) (c c' : Class Value) (p p' : Property) : Prop where
  key : p.key = p'.key
  unique : p.unique = p'.unique
  optional : p.optional = p'.optional
  isIdentifier : p.isIdentifier = p'.isIdentifier
  default : p.default.map Value.rendered = p'.default.map Value.rendered
  relationship : Option.Rel (LinkAlike r r' c c' p.key) p.relationship p'.relationship
  classification : ∃ k k', p.classification = some k ∧ p'.classification = some k' ∧
    ClassificationAlike r r' c c' p.key k k'

/-- Classes that lead to the same compiled parts. -/
structure ClassAlike (r r' : Registry) (d d' : Descriptor) : Prop where
  name : d.name = d'.name
  together : d.together = d'.together
  properties : List.Forall₂ (PropertyAlike r r' d.cls d'.cls) d.properties d'.properties

theorem classificationAlike {k k' : Classification} (hk : p.classification = some k) (hk' : p'.classification = some k')
    (hrelationship : ∀ rel, k = .relationship rel ↔ p.relationship = some rel)
    (hrelationship' : ∀ rel, k' = .relationship rel ↔ p'.relationship = some rel)
    (htold : PropertyTold r r' c c' p p') (hsame : r.PropertySame r' p p') :
    ClassificationAlike r r' c c' p.key k k' := by
  have hkind : k.kind = k'.kind := by
    have hkinds := htold.kind
    rw [Property.kind?,Property.kind?,hk,hk'] at hkinds
    exact Option.some.inj hkinds
  match k, k' with
  | .single e, .single e' => exact .single (hsame.single e e' hk hk')
  | .array e, .array e' => exact .array (hsame.array e e' hk hk')
  | .relationship rel, .relationship rel' =>
    have hrel := (hrelationship rel).mp rfl
    have hrel' := (hrelationship' rel').mp rfl
    have hlink := htold.relationship
    rw [hrel,hrel'] at hlink
    cases hlink with
    | some hlink => exact .relationship ⟨hlink,hsame.link rel rel' hrel hrel'⟩
  | .single e, .array _ | .single e, .relationship _ => cases e <;> cases hkind
  | .array _, .single e | .relationship _, .single e => cases e <;> cases hkind
  | .array _, .relationship _ | .relationship _, .array _ => cases hkind

/-- Classes in one place of exports that tell and leave out the same lead to the same compiled parts. -/
theorem classAlike_of_told (hsame : r.LeavesOutSame r') (hplaced : (c, c') ∈ r.sortedClasses.zip r'.sortedClasses)
    (htold : r.ToldAlike r' c c') :
    ∃ d d', r.merge c = .ok d ∧ r'.merge c' = .ok d' ∧ r.ClassAlike r' d d' := by
  obtain ⟨d,d',hd,hd',htold⟩ := htold
  refine ⟨d,d',hd,hd',htold.name,htold.together,?_⟩
  refine List.forall₂_iff_zip.mpr ⟨htold.properties.length_eq,fun {p p'} hp => ?_⟩
  have hproperty := List.forall₂_zip htold.properties hp
  have hleft := hsame c c' d d' hplaced hd hd' p p' hp
  obtain ⟨k,hk,hrelationship⟩ := merge_classified hd (List.of_mem_zip hp).1
  obtain ⟨k',hk',hrelationship'⟩ := merge_classified hd' (List.of_mem_zip hp).2
  refine ⟨hproperty.key,hproperty.unique,hproperty.optional,hproperty.isIdentifier,hleft.default,?_,k,k',hk,hk',
    classificationAlike hk hk' hrelationship hrelationship' hproperty hleft⟩
  have hlink := hproperty.relationship
  have hlinks := hleft.link
  revert hlink hlinks
  cases p.relationship <;> cases p'.relationship
  · exact fun _ _ => .none
  · intro hlink
    cases hlink
  · intro hlink
    cases hlink
  · intro hlink hlinks
    cases hlink with
    | some hlink => exact .some ⟨hlink,hlinks _ _ rfl rfl⟩

/-- Registries whose exports tell the same and leave out the same. -/
structure Alike (r r' : Registry) : Prop where
  told : List.Forall₂ (ToldAlike r r') r.sortedClasses r'.sortedClasses
  leftOut : r.LeavesOutSame r'

theorem descriptor_of_registered (h : r.isRegistered c = true) : r.descriptor (.cls c) = r.merge c := by
  rw [descriptor,if_pos h]

theorem descriptor_of_unregistered (r : Registry) (h : r.isRegistered c = false) :
    r.descriptor (.cls c) = .error (.missing (.metadata c.name.text)) := by
  rw [descriptor,if_neg (by simp [h])]

theorem isRegistered_of_descriptor {d : Descriptor} (h : r.descriptor (.cls c) = .ok d) : r.isRegistered c = true := by
  by_contra hunknown
  rw [r.descriptor_of_unregistered (by simpa using hunknown)] at h
  cases h

/-- Classes in one place of such registries have descriptors that lead to the same compiled parts. -/
theorem Alike.descriptor (h : r.Alike r') (hplaced : (c, c') ∈ r.sortedClasses.zip r'.sortedClasses) :
    ∃ d d', r.descriptor (.cls c) = .ok d ∧ r'.descriptor (.cls c') = .ok d' ∧ d.cls = c ∧ d'.cls = c' ∧
      r.ClassAlike r' d d' := by
  obtain ⟨d,d',hd,hd',halike⟩ := classAlike_of_told h.leftOut hplaced (List.forall₂_zip h.told hplaced)
  obtain ⟨_,hmerged⟩ := merge_cases hd
  obtain ⟨_,hmerged'⟩ := merge_cases hd'
  rw [descriptor_of_registered (isRegistered_of_mem (List.of_mem_zip hplaced).1),
    descriptor_of_registered (isRegistered_of_mem (List.of_mem_zip hplaced).2)]
  exact ⟨d,d',hd,hd',hmerged.cls,hmerged'.cls,halike⟩

/-- The targets of links that are alike have one name. -/
theorem LinkAlike.resolve {key : String} {rel rel' : Relationship Value} (h : LinkAlike r r' c c' key rel rel') :
    (r.resolve c key rel).map r.nameOf = (r'.resolve c' key rel').map r'.nameOf := by
  obtain ⟨e,e',he,he',hname⟩ := h.told.target
  rw [he,he']
  exact congrArg Except.ok hname

theorem PropertyAlike.isRelationship (h : r.PropertyAlike r' c c' p p') : p.isRelationship = p'.isRelationship := by
  obtain ⟨k,k',hk,hk',hclass⟩ := h.classification
  rw [Property.isRelationship,Property.isRelationship,hk,hk']
  cases hclass <;> rfl

theorem ElementSame.parts {e e' : Element} (h : r.ElementSame r' e e') : e.scalar? = e'.scalar? ∧ e.values? = e'.values? := by
  cases h with
  | plain _ hscalar hvalues => exact ⟨hscalar,hvalues⟩
  | embedded _ _ _ => exact ⟨rfl,rfl⟩

theorem ClassificationAlike.values? {key : String} {k k' : Classification}
    (h : r.ClassificationAlike r' c c' key k k') : k.values? = k'.values? := by
  cases h with
  | single h => exact h.parts.2
  | array h => exact h.parts.2
  | relationship h => rfl

/-- Links under one key that are alike. -/
def LinksAlike (r r' : Registry) (c c' : Class Value) : List (String × Relationship Value) →
    List (String × Relationship Value) → Prop :=
  List.Forall₂ fun link link' => link.1 = link'.1 ∧ r.LinkAlike r' c c' link.1 link.2 link'.2

theorem ClassAlike.links {d d' : Descriptor} (h : r.ClassAlike r' d d') : LinksAlike r r' d.cls d'.cls d.links d'.links := by
  refine List.rel_filterMap ?_ (List.rel_filter ?_ h.properties)
  · intro p p' hp
    have hlink := hp.relationship
    dsimp only
    generalize p.relationship = link at hlink ⊢
    generalize p'.relationship = link' at hlink ⊢
    cases hlink with
    | none => exact .none
    | some hlink => exact .some ⟨hp.key,hlink⟩
  · intro p p' hp
    dsimp only
    rw [hp.isRelationship]

/-- Properties under one name that are alike. -/
def KeptAlike (r r' : Registry) (c c' : Class Value) : List (String × Property) → List (String × Property) → Prop :=
  List.Forall₂ fun entry entry' => entry.1 = entry'.1 ∧ r.PropertyAlike r' c c' entry.2 entry'.2

theorem KeptAlike.renaming {kept kept' : List (String × Property)} (h : KeptAlike r r' c c' kept kept') :
    kept.map (fun (name, p) => (p.key, name)) = kept'.map fun (name, p) => (p.key, name) :=
  map_eq_of_forall₂ h fun (_, _) (_, _) hentry => by
    dsimp only
    rw [hentry.2.key]
    exact congrArg _ hentry.1

/-- The properties that are no relationships, under names that depend on their keys and on what identifies. -/
theorem ClassAlike.kept {d d' : Descriptor} (h : r.ClassAlike r' d d') (documentIdField idField : String) :
    r.KeptAlike r' d.cls d'.cls
      ((d.properties.filter (!·.isRelationship)).map fun p => (Renaming.ofIdentifier documentIdField idField p, p))
      ((d'.properties.filter (!·.isRelationship)).map fun p => (Renaming.ofIdentifier documentIdField idField p, p)) := by
  refine List.rel_map ?_ (List.rel_filter ?_ h.properties)
  · intro p p' hp
    refine ⟨?_,hp⟩
    dsimp only
    rw [Renaming.ofIdentifier,Renaming.ofIdentifier,hp.isIdentifier,hp.key]
  · intro p p' hp
    dsimp only
    rw [hp.isRelationship]

theorem PropertyAlike.defaultEntry (h : r.PropertyAlike r' c c' p p') :
    optionalEntry "default" Value.rendered p.default = optionalEntry "default" Value.rendered p'.default := by
  have hentry (default : Option Value) :
      optionalEntry "default" Value.rendered default = optionalEntry "default" id (default.map Value.rendered) := by
    cases default <;> rfl
  rw [hentry,hentry,h.default]

end Registry

end Trischema
