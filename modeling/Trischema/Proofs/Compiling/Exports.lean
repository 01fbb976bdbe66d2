import Trischema.Proofs.Compiling.Completeness
import Trischema.Proofs.Compiling.Layouts

/-!
What the exports of artifacts are made of. Names, texts and flags are the exports' own; every other value comes from
the enumerated values, the defaults and the links of properties. An export has a property of values that goes by parts
where these have it.
-/

namespace Trischema

variable {P : Value → Prop}

namespace Relationship

/-- Whether what a table tells of a link has a property: its cardinality, the property that points back, and the name of
the join table. -/
structure Joins (P : Value → Prop) (rel : Relationship Value) : Prop where
  kind : ∀ kind, rel.cardinality = some kind → ∃ v, kind.toValue Cardinality.text = .ok v ∧ P v
  inverse : P rel.inverse
  joinTable : rel.joinTable.truthy = true → P rel.joinTable

end Relationship

namespace Property

/-- Whether all values of a property that artifacts export have a property. -/
structure Exports (P : Value → Prop) (p : Property) : Prop where
  tells : p.Tells P
  values : ∀ k, p.classification = some k → ∀ vs, k.values? = some vs → ∀ v ∈ vs, P v
  joins : ∀ rel, p.relationship = some rel → rel.Joins P

end Property

namespace Descriptor

theorem mem_links {d : Descriptor} {link : String × Relationship Value} (h : link ∈ d.links) :
    ∃ p ∈ d.properties, p.relationship = some link.2 := by
  obtain ⟨p,hp,hlink⟩ := List.mem_filterMap.mp h
  obtain ⟨rel,hrel,rfl⟩ := Option.map_eq_some_iff.mp hlink
  exact ⟨p,(List.mem_filter.mp hp).1,hrel⟩

end Descriptor

variable {r : Registry} {c : Class Value} {d : Descriptor} {s : Settings} {p : Property} {name : String}

theorem Field.entry_exports (hP : Value.ByParts P) {f : Field Value} (hnested : ∀ v, f.shape.nested? = some v → P v)
    (henum : ∀ vs, f.enum = some vs → ∀ v ∈ vs, P v) (hdefault : ∀ v, f.default = some v → P v) : P f.entry.2 := by
  obtain ⟨name,shape,enum,unique,optional,default,isIdentifier⟩ := f
  rw [Field.entry,hP.record_iff]
  cases shape with
  | nested v | nestedArray v =>
    have hschema : P v := hnested v rfl
    simpa [hP.str,hP.bool,hP.list,hP.flagEntry,hschema] using And.intro henum hdefault
  | scalar _ | scalars _ | references _ =>
    simpa [hP.str,hP.bool,hP.list,hP.flagEntry] using And.intro henum hdefault

namespace Document

variable {idField : String} {nest : Class Value → Except Error Document}

theorem fieldOf_exports (hP : Value.ByParts P) (hp : p.Exports P) {f : Field Document}
    (hnest : ∀ e schema, p.embedded? = some e → nest e = .ok schema → P schema.toRecord)
    (h : fieldOf r nest c name p = .ok f) : P f.view.entry.2 := by
  obtain ⟨k,shape,hk,hshape,rfl⟩ := fieldOf_eq_ok.mp h
  have hdefault (v : Value) (hv : (fieldWith name p k shape).view.default = some v) : P v := by
    obtain ⟨w,hw,rfl⟩ := Option.map_eq_some_iff.mp hv
    rw [fieldWith] at hw
    dsimp only at hw
    split at hw
    · cases hgiven : p.default with
      | none =>
        rw [hgiven] at hw
        cases hw
        exact hP.str _
      | some given =>
        rw [hgiven] at hw
        cases hw
        exact hp.tells.default _ hgiven
    · exact hp.tells.default _ hw
  refine Field.entry_exports hP (fun v hv => ?_) (hp.values k hk) hdefault
  cases hshape with
  | nested hschema | nestedArray hschema =>
    cases hv
    refine hnest _ _ ?_ hschema
    rw [Property.embedded?,hk]
    rfl
  | scalar _ | scalars _ | references _ => cases hv

theorem toRecord_exports (hP : Value.ByParts P) {doc : Document} (h : ∀ f ∈ doc.fields, P f.view.entry.2) :
    P doc.toRecord := by
  obtain ⟨name,fields,hasId,idField,together,isPlaceholder⟩ := doc
  have hfields : P (.keyed (fields.map fun f => f.view.entry)) := by
    refine hP.keyed fun e he => ?_
    obtain ⟨f,hf,rfl⟩ := List.mem_map.mp he
    exact h f hf
  rw [toRecord,fieldRecords_eq,hP.record_iff]
  cases hasId <;> cases isPlaceholder <;> simp [hP.ofText?,hP.bool,hP.str,hP.togetherEntry,hfields]

/-- The export of a document schema has what the exported values of the properties have that it was expanded from. -/
theorem expand_exports (hP : Value.ByParts P) (hall : r.EveryProperty (·.Exports P))
    {levels : Nat} {embedded : Bool} {doc : Document}
    (h : expand r idField levels embedded c = .ok doc) : P doc.toRecord := by
  induction levels generalizing embedded c doc with
  | zero =>
    cases h
    exact toRecord_exports hP (List.forall_mem_nil _)
  | succ levels ih =>
    obtain ⟨d,hlevel⟩ := level_eq_ok.mp h
    refine toRecord_exports hP fun f hf => ?_
    obtain ⟨entry,hentry,hfield⟩ := exists_left_of_forall₂ hlevel.fields hf
    obtain ⟨p,hp,rfl⟩ := List.mem_map.mp hentry
    have hp := (List.mem_filter.mp hp).1
    refine fieldOf_exports hP (hall.described hlevel.descriptor p hp) (fun e schema _ hschema => ?_) hfield
    exact ih hschema

end Document

namespace Graph

theorem propertyOf_exports (hP : Value.ByParts P) (hp : p.Exports P) {n : NodeProperty}
    (h : propertyOf name p = .ok n) : P n.toRecord := by
  have hrecord (hdefault : n.default = p.default) (k : Classification) (hk : p.classification = some k)
      (henum : n.enum = k.values?) : P n.toRecord := by
    have hvalues := hp.values k hk
    have hdefaults := hp.tells.default
    rw [← henum] at hvalues
    rw [← hdefault] at hdefaults
    rw [NodeProperty.toRecord,hP.record_iff]
    simpa [hP.str,hP.bool,hP.list,hP.flagEntry] using And.intro hvalues hdefaults
  rw [propertyOf] at h
  cases hk : p.classification with
  | none =>
    rw [hk] at h
    cases h
  | some k =>
    rw [hk] at h
    cases k with
    | relationship rel => cases h
    | single e | array e =>
      cases h
      exact hrecord rfl _ hk rfl

theorem edgeOf_exports (hP : Value.ByParts P) {names : Renaming} {key : String} {rel : Relationship Value} {e : Edge}
    (hrel : rel.Tells P) (h : edgeOf r d names key rel = .ok e) : ∃ v, e.toRecord = .ok v ∧ P v := by
  obtain ⟨target,_,h⟩ := bind_eq_ok.mp h
  dsimp only at h
  split at h
  · cases h
  · cases h
    obtain ⟨⟨direction,hdirection,hd⟩,⟨cardinality,hcardinality,hc⟩⟩ := hrel
    refine ⟨_,bind_eq_ok.mpr ⟨direction,hdirection,bind_eq_ok.mpr ⟨cardinality,hcardinality,rfl⟩⟩,?_⟩
    simp [hP.record_iff,hP.str,hP.texts,hd,hc]

theorem mem_addEdge {edges : List Edge} {e e' : Edge} (h : e ∈ addEdge edges e') : e ∈ edges ∨ e = e' := by
  rw [addEdge] at h
  split at h
  · exact .inl h
  · simpa using h

theorem mem_addEdges {edges seen : List Edge} {e : Edge} (h : e ∈ edges.foldl addEdge seen) : e ∈ seen ∨ e ∈ edges := by
  induction edges generalizing seen with
  | nil => exact .inl h
  | cons edge edges ih =>
    rcases ih h with h | h
    · rcases mem_addEdge h with h | rfl
      · exact .inl h
      · exact .inr List.mem_cons_self
    · exact .inr (List.mem_cons_of_mem _ h)

theorem compile_exports (hP : Value.ByParts P) {settings : Except Error Settings} {g : Graph}
    (hall : ∀ d, r.descriptor (.cls c) = .ok d → ∀ p ∈ d.properties, p.Exports P)
    (h : compile r settings (.cls c) = .ok g) : ∃ v, g.toRecord = .ok v ∧ P v := by
  obtain ⟨d,hd,h⟩ := bind_eq_ok.mp h
  obtain ⟨s,_,h⟩ := bind_eq_ok.mp h
  obtain ⟨properties,hproperties,h⟩ := bind_eq_ok.mp h
  obtain ⟨edges,hedges,h⟩ := bind_eq_ok.mp h
  cases pure_eq_ok.mp h
  have hnodes : ∀ n ∈ properties, P n.toRecord := by
    intro n hn
    obtain ⟨entry,hentry,hn⟩ := exists_left_of_forall₂ (mapM_eq_ok.mp hproperties) hn
    obtain ⟨p,hp,rfl⟩ := List.mem_map.mp hentry
    exact propertyOf_exports hP (hall d hd p (List.mem_filter.mp hp).1) hn
  have hlinks : ∀ e ∈ edges.foldl addEdge [], ∃ v, e.toRecord = .ok v ∧ P v := by
    intro e he
    have he := (mem_addEdges he).resolve_left List.not_mem_nil
    obtain ⟨link,hlink,he⟩ := exists_left_of_forall₂ (mapM_eq_ok.mp hedges) he
    obtain ⟨p,hp,hrel⟩ := Descriptor.mem_links hlink
    exact edgeOf_exports hP ((hall d hd p hp).tells.relationship _ hrel) he
  obtain ⟨records,hrecords,hheld⟩ := exists_mapM_iff.mpr hlinks
  refine ⟨_,bind_eq_ok.mpr ⟨records,hrecords,rfl⟩,?_⟩
  have hnode : P (.keyed (properties.map fun p => (p.name, p.toRecord))) := by
    refine hP.keyed fun e he => ?_
    obtain ⟨n,hn,rfl⟩ := List.mem_map.mp he
    exact hnodes n hn
  simpa [hP.record_iff,hP.list,hP.str,hP.togetherEntry,Node.toRecord,hnode] using hheld

end Graph

namespace Relational

theorem columnOf_exports (hP : Value.ByParts P) (hp : p.Exports P) {column : Column}
    (h : columnOf name p = .ok column) : P column.toRecord := by
  cases hk : p.classification with
  | none =>
    rw [columnOf,hk] at h
    cases h
  | some k =>
    rw [columnOf_eq hk] at h
    obtain ⟨⟨type,elements⟩,_,rfl⟩ := map_eq_ok.mp h
    have hvalues := hp.values k hk
    rw [Column.toRecord,hP.record_iff]
    simpa [hP.str,hP.bool,hP.list,hP.flagEntry] using And.intro hvalues fun v _ hv => hp.tells.default v hv

theorem joinColumn_exports (hP : Value.ByParts P) (j : JoinColumn) : P j.toValue := by
  cases j with
  | byConvention => exact hP.bool _
  | named name => exact hP.record_iff.mpr (held_cons.mpr ⟨hP.str name,held_nil⟩)

theorem customTable_exports (hP : Value.ByParts P) {name : Option Value} (hname : ∀ v, name = some v → P v)
    (columns : Option (String × String)) : P (JoinTable.custom name columns).toValue := by
  have hcolumn := joinColumn_exports hP
  refine hP.record_iff.mpr (held_append.mpr ⟨held_optionalEntry.mpr hname,?_⟩)
  rcases columns with _ | ⟨near,far⟩
  · exact held_nil
  · exact held_cons.mpr ⟨hcolumn _,held_cons.mpr ⟨hcolumn _,held_nil⟩⟩

theorem joinTable_exports (hP : Value.ByParts P) {rel : Relationship Value} (hrel : rel.Joins P) {j : JoinTable}
    (h : joinTableOf rel = some j) : P j.toValue := by
  have hname (v : Value) (hv : (if rel.joinTable.truthy then some rel.joinTable else none) = some v) : P v := by
    split at hv
    · cases hv
      exact hrel.joinTable ‹_›
    · cases hv
  have hchosen (given : Bool) (columns : Option (String × String)) :
      P (if given then JoinTable.custom (if rel.joinTable.truthy then some rel.joinTable else none) columns
        else .byConvention).toValue := by
    cases given with
    | true => exact customTable_exports hP hname columns
    | false => exact hP.bool true
  rw [joinTableOf] at h
  split at h
  · cases Option.some.inj h
    exact hchosen _ _
  · cases h

theorem relationOf_exports (hP : Value.ByParts P) {key : String} {rel : Relationship Value}
    {kind : Choice Cardinality Value} (hkind : rel.cardinality = some kind) (hrel : rel.Joins P) {relation : Relation}
    (h : relationOf r c key rel kind = .ok relation) : ∃ v, relation.toRecord = .ok v ∧ P v := by
  obtain ⟨target,_,h⟩ := bind_eq_ok.mp h
  cases pure_eq_ok.mp h
  obtain ⟨v,hv,hkind⟩ := hrel.kind kind hkind
  refine ⟨_,bind_eq_ok.mpr ⟨v,hv,rfl⟩,?_⟩
  have hcascade : P rel.cascade.toValue := by
    cases rel.cascade with
    | flag b => exact hP.bool b
    | operations names => exact hP.texts names
  have hcolumn (j : JoinColumn) (_ : joinColumnOf rel = some j) := joinColumn_exports hP j
  have htable (j : JoinTable) (hj : joinTableOf rel = some j) := joinTable_exports hP hrel hj
  simpa [hP.record_iff,hP.str,hP.bool,hcascade,hkind,hrel.inverse] using And.intro hcolumn htable

theorem relationsOf_exports (hP : Value.ByParts P) {links : List (String × Relationship Value)}
    (hlinks : ∀ link ∈ links, link.2.Joins P) {relations : List Relation}
    (h : (relationsOf r c links).result = .ok relations) : ∃ es, relationRecords relations = .ok es ∧ Held P es := by
  induction links generalizing relations with
  | nil =>
    cases h
    exact ⟨[],rfl,held_nil⟩
  | cons link links ih =>
    obtain ⟨key,rel⟩ := link
    obtain ⟨hrel,hlinks⟩ := List.forall_mem_cons.mp hlinks
    rw [relationsOf] at h
    cases hkind : rel.cardinality with
    | none =>
      rw [hkind] at h
      exact ih hlinks h
    | some kind =>
      rw [hkind] at h
      dsimp only at h
      cases hrelation : relationOf r c key rel kind with
      | error fault =>
        rw [hrelation] at h
        cases h
      | ok relation =>
        rw [hrelation] at h
        obtain ⟨rest,hrest,rfl⟩ := map_eq_ok.mp h
        obtain ⟨v,hv,hpart⟩ := relationOf_exports hP hkind hrel hrelation
        obtain ⟨es,hes,hheld⟩ := ih hlinks hrest
        refine ⟨_,bind_eq_ok.mpr ⟨v,hv,bind_eq_ok.mpr ⟨es,hes,rfl⟩⟩,held_cons.mpr ⟨hpart,hheld⟩⟩

/-- The table of a descriptor is exported, and its export has what the exported values of the properties have. -/
theorem ofDescriptor_exports (hP : Value.ByParts P) (hall : ∀ p ∈ d.properties, p.Exports P) {t : Relational}
    (h : (ofDescriptor r s d).result = .ok t) : ∃ v, t.toRecord = .ok v ∧ P v := by
  obtain ⟨relations,hrelations,h⟩ := bind_eq_ok.mp h
  obtain ⟨columns,hcolumns,h⟩ := bind_eq_ok.mp h
  cases pure_eq_ok.mp h
  have hlinks : ∀ link ∈ d.links, link.2.Joins P := by
    intro link hlink
    obtain ⟨p,hp,hrel⟩ := Descriptor.mem_links hlink
    exact (hall p hp).joins _ hrel
  obtain ⟨es,hes,hheld⟩ := relationsOf_exports hP hlinks hrelations
  have hkeyed : P (.keyed (columns.map fun column => (column.name, column.toRecord))) := by
    refine hP.keyed fun e he => ?_
    obtain ⟨column,hcolumn,rfl⟩ := List.mem_map.mp he
    obtain ⟨entry,hentry,hcolumn⟩ := exists_left_of_forall₂ (mapM_eq_ok.mp hcolumns) hcolumn
    obtain ⟨p,hp,rfl⟩ := List.mem_map.mp hentry
    exact columnOf_exports hP (hall p (List.mem_filter.mp hp).1) hcolumn
  refine ⟨_,bind_eq_ok.mpr ⟨es,hes,rfl⟩,?_⟩
  simp [hP.record_iff,hP.str,hP.togetherEntry,hkeyed,hP.keyed hheld]

theorem compile_exports (hP : Value.ByParts P) {settings : Except Error Settings} {maxDepth : Option Int} {t : Relational}
    (hall : ∀ d, r.descriptor (.cls c) = .ok d → ∀ p ∈ d.properties, p.Exports P)
    (h : (compile r settings (.cls c) maxDepth 0).result = .ok t) : ∃ v, t.toRecord = .ok v ∧ P v := by
  rcases compile_cases h with ⟨limit,hpast,_⟩ | ⟨d,s,hd,_,h⟩
  · omega
  · exact ofDescriptor_exports hP (hall d hd) h

end Relational

/-- The artifacts of a class are exported, and their exports have a property that goes by parts where the
exported values of all merged properties have it. -/
theorem Artifact.compile_exports (hP : Value.ByParts P) (hall : r.EveryProperty (·.Exports P))
    {settings : Except Error Settings} {maxDepth : Option Int}
    {backend : Backend} {artifact : Artifact}
    (h : (compile r settings (.cls c) maxDepth backend).result = .ok artifact) :
    ∃ v, artifact.toRecord = .ok v ∧ P v := by
  cases backend with
  | document =>
    obtain ⟨doc,hdoc,rfl⟩ := map_eq_ok.mp h
    rw [Document.compile_class] at hdoc
    split at hdoc
    · cases hdoc
    · cases hdoc
    · exact ⟨_,rfl,Document.expand_exports hP hall hdoc⟩
  | graph =>
    obtain ⟨g,hg,rfl⟩ := map_eq_ok.mp h
    exact Graph.compile_exports hP (fun d hd => hall.described hd) hg
  | relational =>
    obtain ⟨t,ht,rfl⟩ := map_eq_ok.mp h
    exact Relational.compile_exports hP (fun d hd => hall.described hd) ht

end Trischema
