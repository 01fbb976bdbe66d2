import Trischema.Proofs.Compiling.Reaching
import Trischema.Proofs.Registry.Complete

/-!
What freezing makes sure of, and what it leaves to compiling. A frozen registry has descriptors and targets for all
that is registered, so that every table can be compiled. It does not look into embedded classes that are not
registered, nor at the properties that edges copy, and these are what other artifacts may fail for.
-/

namespace Trischema

namespace Registry

variable {r : Registry} {c c' : Class Value} {d : Descriptor}

theorem resolve_sameName (h : c'.name = c.name) : r.resolve c' = r.resolve c := by
  have hname : r.nameOf c' = r.nameOf c := by
    rw [nameOf,nameOf,registration,registration,h]
  funext key rel
  simp only [resolve,hname]

/-- A registered class is described as the one of its name that is listed. -/
theorem descriptor_listed (hregistered : r.isRegistered c = true) :
    ∃ c' ∈ r.classes, c'.name = c.name ∧ r.descriptor (.cls c) = (r.merge c').map fun d => { d with cls := c } := by
  obtain ⟨c',hc',hname⟩ := exists_listed hregistered
  refine ⟨c',hc',hname,?_⟩
  rw [descriptor_of_registered hregistered,merge_sameName hname.symm]

/-- What holds of the properties of registered classes holds of those of a class that is described. -/
theorem EveryProperty.described {Q : Property → Prop} (hall : r.EveryProperty Q)
    (hd : r.descriptor (.cls c) = .ok d) : ∀ p ∈ d.properties, Q p := by
  obtain ⟨c',hc',_,hdescriptor⟩ := descriptor_listed (isRegistered_of_descriptor hd)
  obtain ⟨d',hd',rfl⟩ := map_eq_ok.mp (hdescriptor.symm.trans hd)
  exact hall c' hc' d' hd'

/-- What is registered can be described, and so is what is embedded in it, if it is registered. -/
theorem Complete.described (h : r.Complete) (hregistered : r.isRegistered c = true) :
    ∃ d, r.descriptor (.cls c) = .ok d ∧ d.cls = c ∧
      ∀ p ∈ d.properties, ∀ rel, p.relationship = some rel → ∃ target, r.resolve c p.key rel = .ok target := by
  obtain ⟨c',hc',hname,hdescriptor⟩ := descriptor_listed hregistered
  obtain ⟨d,hd,htargets⟩ := h c' hc'
  rw [hd] at hdescriptor
  refine ⟨{ d with cls := c },hdescriptor,rfl,?_⟩
  rw [← resolve_sameName hname]
  exact htargets

end Registry

namespace Document

variable {r : Registry} {nest : Class Value → Except Error Document} {c : Class Value} {p : Property}
  {idField name : String} {embedded : Bool}

/-- A class whose schema cannot be expanded leads to a class that is not registered, within the levels. -/
theorem expand_error (hcomplete : r.Complete) {levels : Nat} {fault : Error}
    (h : expand r idField levels embedded c = .error fault) :
    ∃ path embedded' c', path.length < levels ∧ classAt? r idField embedded c path = some (embedded', c') ∧
      r.isRegistered c' = false ∧ fault = .missing (.metadata c'.name.text) := by
  obtain ⟨path,embedded',c',hlength,hclass,hblocks⟩ := expand_blocked h
  refine ⟨path,embedded',c',hlength,hclass,?_⟩
  cases hblocks with
  | unknown hunknown => exact ⟨hunknown,rfl⟩
  | unmerged hregistered hmerge =>
    obtain ⟨d,hd,_⟩ := hcomplete.described hregistered
    rw [Registry.descriptor_registered hd] at hmerge
    cases hmerge
  | unresolved hd hp hrel hresolve =>
    obtain ⟨d,hd',_,htargets⟩ := hcomplete.described (Registry.isRegistered_of_descriptor hd)
    cases hd.symm.trans hd'
    obtain ⟨target,htarget⟩ := htargets _ hp.1 _ hrel
    rw [htarget] at hresolve
    cases hresolve

/-- A class can be expanded just where all classes within the levels are registered; otherwise it fails for one that is
not. -/
theorem expand_iff (hcomplete : r.Complete) (levels : Nat) :
    ((∃ doc, expand r idField levels embedded c = .ok doc) ↔ ∀ path embedded' c', path.length < levels →
      classAt? r idField embedded c path = some (embedded', c') → r.isRegistered c' = true) ∧
    ∀ fault, expand r idField levels embedded c = .error fault → ∃ path embedded' c', path.length < levels ∧
      classAt? r idField embedded c path = some (embedded', c') ∧ r.isRegistered c' = false ∧
      fault = .missing (.metadata c'.name.text) := by
  have herror (fault : Error) (hfault : expand r idField levels embedded c = .error fault) :=
    expand_error hcomplete hfault
  refine ⟨⟨fun ⟨doc,hdoc⟩ path embedded' c' hlength hclass => (expand_sound hdoc hlength hclass).registered,fun hall => ?_⟩,herror⟩
  refine exists_ok_of_no_error fun fault hfault => ?_
  obtain ⟨path,embedded',c',hlength,hclass,hunknown,_⟩ := herror fault hfault
  rw [hall path embedded' c' hlength hclass] at hunknown
  cases hunknown

end Document

namespace Descriptor

/-- The names of properties that an edge copies although they are no properties of its class, or links. -/
def unknownCopies (d : Descriptor) (rel : Relationship Value) : List String :=
  rel.edgeProperties.filter fun name => !d.properties.any fun p => !p.isRelationship && p.key == name

end Descriptor

namespace Graph

variable {r : Registry} {c : Class Value} {d : Descriptor} {s : Settings}

theorem covers_kept (d : Descriptor) (s : Settings) (name : String) :
    Renaming.covers ((kept d s).map fun (name, p) => (p.key, name)) name =
      d.properties.any fun p => !p.isRelationship && p.key == name := by
  rw [Bool.eq_iff_iff,Renaming.covers,List.lookup_isSome_iff,List.any_eq_true]
  constructor
  · rintro ⟨entry,hentry,hname⟩
    obtain ⟨_,hkept,rfl⟩ := List.mem_map.mp hentry
    obtain ⟨p,hp,rfl⟩ := List.mem_map.mp hkept
    obtain ⟨hp,hplain⟩ := List.mem_filter.mp hp
    refine ⟨p,hp,?_⟩
    rw [hplain,Bool.true_and,beq_iff_eq]
    exact (beq_iff_eq.mp hname).symm
  · rintro ⟨p,hp,hfound⟩
    obtain ⟨hplain,hname⟩ := Bool.and_eq_true_iff.mp hfound
    refine ⟨_,List.mem_map.mpr ⟨_,List.mem_map.mpr ⟨p,List.mem_filter.mpr ⟨hp,hplain⟩,rfl⟩,rfl⟩,?_⟩
    exact beq_iff_eq.mpr (beq_iff_eq.mp hname).symm

theorem propertyOf_ok {p : Property} {k : Classification} (hk : p.classification = some k)
    (hplain : p.isRelationship = false) (name : String) : ∃ n, propertyOf name p = .ok n := by
  rw [Property.isRelationship,hk] at hplain
  rw [propertyOf,hk]
  cases k with
  | relationship rel => cases hplain
  | single e => exact ⟨_,rfl⟩
  | array e => exact ⟨_,rfl⟩

theorem edgeOf_eq {names : Renaming} {key : String} {rel : Relationship Value} {target : Class Value}
    (hnames : names = (kept d s).map fun (name, p) => (p.key, name)) (htarget : r.resolve d.cls key rel = .ok target) :
    edgeOf r d names key rel =
      if d.unknownCopies rel = [] then
        .ok ⟨d.name, r.nameOf target, rel.edgeType, rel.direction, key, rel.cardinality, rel.edgeProperties.map names.apply⟩
      else .error (.definition (.unknownEdgeProperties d.name key (d.unknownCopies rel)) ⟨some d.name, some key⟩) := by
  have hunknown : rel.edgeProperties.filter (!names.covers ·) = d.unknownCopies rel := by
    subst hnames
    simp only [covers_kept,Descriptor.unknownCopies]
  rw [edgeOf,htarget,ok_bind,hunknown]
  cases d.unknownCopies rel <;> rfl

/-- The graph of a described class fails only with an edge that copies what is no property. -/
theorem compile_iff (hd : r.descriptor (.cls c) = .ok d)
    (htargets : ∀ link ∈ d.links, ∃ target, r.resolve d.cls link.1 link.2 = .ok target) :
    ((∃ g, compile r (.ok s) (.cls c) = .ok g) ↔ ∀ link ∈ d.links, d.unknownCopies link.2 = []) ∧
    ∀ fault, compile r (.ok s) (.cls c) = .error fault → ∃ link ∈ d.links, d.unknownCopies link.2 ≠ [] ∧
      fault = .definition (.unknownEdgeProperties d.name link.1 (d.unknownCopies link.2)) ⟨some d.name, some link.1⟩ := by
  have hproperties : ∃ ns, (kept d s).mapM (fun entry => propertyOf entry.1 entry.2) = .ok ns := by
    refine exists_ok_of_no_error fun fault hfault => ?_
    obtain ⟨entry,hentry,hfails⟩ := exists_of_mapM_error hfault
    obtain ⟨p,hp,rfl⟩ := List.mem_map.mp hentry
    obtain ⟨hp,hplain⟩ := List.mem_filter.mp hp
    obtain ⟨k,hk,_⟩ := Registry.merge_classified (Registry.descriptor_registered hd) hp
    obtain ⟨n,hn⟩ := propertyOf_ok hk (by simpa using hplain) (Renaming.ofIdentifier s.documentIdField s.graphIdField p)
    dsimp only at hfails
    rw [hn] at hfails
    cases hfails
  obtain ⟨ns,hns⟩ := hproperties
  have hcompile : compile r (.ok s) (.cls c) =
      (d.links.mapM fun link => edgeOf r d ((kept d s).map fun (name, p) => (p.key, name)) link.1 link.2).map fun edges =>
        ⟨[⟨d.name, ns, Renaming.groups ((kept d s).map fun (name, p) => (p.key, name)) d.together⟩],
          edges.foldl addEdge []⟩ := by
    rw [compile,hd,ok_bind,ok_bind]
    dsimp only
    rw [hns,ok_bind]
    cases d.links.mapM fun link => edgeOf r d ((kept d s).map fun (name, p) => (p.key, name)) link.1 link.2 <;> rfl
  have herror (fault : Error) (h : compile r (.ok s) (.cls c) = .error fault) : ∃ link ∈ d.links,
      d.unknownCopies link.2 ≠ [] ∧ fault =
        .definition (.unknownEdgeProperties d.name link.1 (d.unknownCopies link.2)) ⟨some d.name, some link.1⟩ := by
    rw [hcompile] at h
    obtain ⟨link,hlink,hfails⟩ := exists_of_mapM_error (map_eq_error.mp h)
    obtain ⟨target,htarget⟩ := htargets link hlink
    rw [edgeOf_eq rfl htarget] at hfails
    split at hfails
    · cases hfails
    · rename_i hunknown
      exact ⟨link,hlink,hunknown,(Except.error.inj hfails).symm⟩
  refine ⟨⟨?_,fun hknown => ?_⟩,herror⟩
  · rintro ⟨g,hg⟩ link hlink
    rw [hcompile] at hg
    obtain ⟨edges,hedges,_⟩ := map_eq_ok.mp hg
    obtain ⟨edge,_,hedge⟩ := exists_right_of_forall₂ (mapM_eq_ok.mp hedges) hlink
    obtain ⟨target,htarget⟩ := htargets link hlink
    rw [edgeOf_eq rfl htarget] at hedge
    split at hedge
    · assumption
    · cases hedge
  · refine exists_ok_of_no_error fun fault hfault => ?_
    obtain ⟨link,hlink,hunknown,_⟩ := herror fault hfault
    exact hunknown (hknown link hlink)

end Graph

namespace Relational

variable {r : Registry} {c : Class Value} {d : Descriptor} {s : Settings}

theorem relationsOf_ok {links : List (String × Relationship Value)}
    (htargets : ∀ link ∈ links, ∃ target, r.resolve c link.1 link.2 = .ok target) :
    ∃ relations, (relationsOf r c links).result = .ok relations := by
  induction links with
  | nil => exact ⟨[],rfl⟩
  | cons link rest ih =>
    obtain ⟨key,rel⟩ := link
    obtain ⟨⟨target,htarget⟩,hrest⟩ := List.forall_mem_cons.mp htargets
    obtain ⟨relations,hrelations⟩ := ih hrest
    rw [relationsOf]
    cases rel.cardinality with
    | none => exact ⟨relations,hrelations⟩
    | some kind =>
      simp only [relationOf,htarget,ok_bind]
      exact ⟨_,map_eq_ok.mpr ⟨relations,hrelations,rfl⟩⟩

/-- The table of a described class can always be compiled. -/
theorem ofDescriptor_ok (hd : r.descriptor (.cls c) = .ok d)
    (htargets : ∀ link ∈ d.links, ∃ target, r.resolve d.cls link.1 link.2 = .ok target) :
    ∃ t, (ofDescriptor r s d).result = .ok t := by
  obtain ⟨relations,hrelations⟩ := relationsOf_ok htargets
  have hcolumns : ∃ columns, (kept d s).mapM (fun (name, p) => columnOf name p) = .ok columns := by
    refine exists_ok_of_no_error fun fault hfault => ?_
    obtain ⟨entry,hentry,hfails⟩ := exists_of_mapM_error hfault
    obtain ⟨p,hp,rfl⟩ := List.mem_map.mp hentry
    obtain ⟨hp,hplain⟩ := List.mem_filter.mp hp
    obtain ⟨k,hk,_⟩ := Registry.merge_classified (Registry.descriptor_registered hd) hp
    rw [Property.isRelationship,hk] at hplain
    dsimp only at hfails
    rw [columnOf_eq hk,map_eq_error] at hfails
    cases k with
    | relationship rel => cases hplain
    | single e => cases hfails
    | array e => cases hfails
  obtain ⟨columns,hcolumns⟩ := hcolumns
  rw [ofDescriptor]
  simp only [hrelations,ok_bind,hcolumns]
  exact ⟨_,rfl⟩

end Relational

section Exports

/-- The export of an artifact fails only with a value that lacks an attribute. -/
theorem Choice.toValue_error {β : Type} {text : β → String} {choice : Choice β Value} {fault : Error}
    (h : choice.toValue text = .error fault) : fault = .failure .attribute := by
  cases choice with
  | known b => cases h
  | other v =>
    rw [toValue,Value.getAttribute] at h
    split at h
    · cases h
    · exact (Except.error.inj h).symm

theorem Cardinality.valueOf_error {cardinality : Option (Choice Cardinality Value)} {fault : Error}
    (h : valueOf cardinality = .error fault) : fault = .failure .attribute := by
  match cardinality, h with
  | some (.other v), h =>
    rw [valueOf] at h
    split at h
    · exact @Choice.toValue_error Cardinality Cardinality.text (.other v) fault h
    · cases h

theorem Edge.toRecord_error {e : Edge} {fault : Error} (h : e.toRecord = .error fault) : fault = .failure .attribute := by
  rcases bind_eq_error.mp h with h | ⟨_,_,h⟩
  · exact Choice.toValue_error h
  · rcases bind_eq_error.mp h with h | ⟨_,_,h⟩
    · exact Cardinality.valueOf_error h
    · cases h

theorem Relation.toRecord_error {relation : Relation} {fault : Error} (h : relation.toRecord = .error fault) :
    fault = .failure .attribute := by
  rcases bind_eq_error.mp h with h | ⟨_,_,h⟩
  · exact Choice.toValue_error h
  · cases h

theorem Relational.relationRecords_error {relations : List Relation} {fault : Error}
    (h : relationRecords relations = .error fault) : fault = .failure .attribute := by
  induction relations with
  | nil => cases h
  | cons relation rest ih =>
    rcases bind_eq_error.mp h with h | ⟨_,_,h⟩
    · exact Relation.toRecord_error h
    · rcases bind_eq_error.mp h with h | ⟨_,_,h⟩
      · exact ih h
      · cases h

theorem Artifact.toRecord_error {artifact : Artifact} {fault : Error} (h : artifact.toRecord = .error fault) :
    fault = .failure .attribute := by
  cases artifact with
  | document d => cases h
  | graph g =>
    rcases bind_eq_error.mp h with h | ⟨_,_,h⟩
    · obtain ⟨e,_,h⟩ := exists_of_mapM_error h
      exact Edge.toRecord_error h
    · cases h
  | relational t =>
    rcases bind_eq_error.mp h with h | ⟨_,_,h⟩
    · exact Relational.relationRecords_error h
    · cases h

end Exports

namespace Registry

variable {r frozen : Registry} {c : Class Value} {d : Descriptor} {s : Settings} {fingerprint : String}

/-- The limit that is given, or the configured one. -/
theorem limit_eq (s : Settings) (maxDepth : Option Nat) :
    Settings.limit (.ok s) (maxDepth.map Int.ofNat) = .ok (maxDepth.getD s.maxDepth) := by
  cases maxDepth with
  | none => rfl
  | some n =>
    have hn : ¬ (Int.ofNat n) < 0 := Int.not_lt.mpr (Int.natCast_nonneg n)
    rw [Option.map_some,Settings.limit,if_neg hn]
    rfl

/-- Whether all classes that are embedded in a class within a limit are registered. -/
def Expands (r : Registry) (s : Settings) (limit : Nat) (c : Class Value) : Prop :=
  ∀ path embedded c', path.length ≤ limit → Document.classAt? r s.documentIdField false c path = some (embedded, c') →
    r.isRegistered c' = true

/-- How a registered class of a frozen registry is compiled. -/
structure Compiles (r : Registry) (s : Settings) (maxDepth : Option Nat) (c : Class Value) (d : Descriptor) : Prop where
  descriptor : r.descriptor (.cls c) = .ok d
  relational : ∃ t, (Artifact.compile r (.ok s) (.cls c) (maxDepth.map Int.ofNat) .relational).result = .ok (.relational t)
  graph : (∃ g, (Artifact.compile r (.ok s) (.cls c) (maxDepth.map Int.ofNat) .graph).result = .ok (.graph g)) ↔
    ∀ link ∈ d.links, d.unknownCopies link.2 = []
  graphError : ∀ fault, (Artifact.compile r (.ok s) (.cls c) (maxDepth.map Int.ofNat) .graph).result = .error fault →
    ∃ link ∈ d.links, d.unknownCopies link.2 ≠ [] ∧
      fault = .definition (.unknownEdgeProperties d.name link.1 (d.unknownCopies link.2)) ⟨some d.name, some link.1⟩
  document : (∃ doc, (Artifact.compile r (.ok s) (.cls c) (maxDepth.map Int.ofNat) .document).result = .ok (.document doc)) ↔
    r.Expands s (maxDepth.getD s.maxDepth) c
  documentError : ∀ fault,
    (Artifact.compile r (.ok s) (.cls c) (maxDepth.map Int.ofNat) .document).result = .error fault →
    ∃ path embedded c', path.length ≤ maxDepth.getD s.maxDepth ∧
      Document.classAt? r s.documentIdField false c path = some (embedded, c') ∧ r.isRegistered c' = false ∧
      fault = .missing (.metadata c'.name.text)

theorem Complete.compiles (h : r.Complete) (s : Settings) (maxDepth : Option Nat)
    (hc : c ∈ r.classes) : ∃ d, Compiles r s maxDepth c d := by
  obtain ⟨d,hd,hcls,htargets⟩ := h.described (isRegistered_of_mem (List.mem_mergeSort.mpr hc))
  have hlinks : ∀ link ∈ d.links, ∃ target, r.resolve d.cls link.1 link.2 = .ok target := by
    intro link hlink
    obtain ⟨p,hp,hlink⟩ := List.mem_filterMap.mp hlink
    obtain ⟨rel,hrel,rfl⟩ := Option.map_eq_some_iff.mp hlink
    rw [hcls]
    exact htargets p (List.mem_filter.mp hp).1 rel hrel
  obtain ⟨hgraph,hgraphError⟩ := Graph.compile_iff (s := s) hd hlinks
  obtain ⟨t,ht⟩ := Relational.ofDescriptor_ok (s := s) hd hlinks
  obtain ⟨hdocument,hdocumentError⟩ :=
    @Document.expand_iff r c s.documentIdField false h (maxDepth.getD s.maxDepth + 1)
  have hexpand : Document.compile r (.ok s) (.cls c) (maxDepth.map Int.ofNat) 0 false =
      Document.expand r s.documentIdField (maxDepth.getD s.maxDepth + 1) false c := by
    rw [Document.compile_class,limit_eq]
  refine ⟨d,hd,⟨t,?_⟩,?_,fun fault hfault => ?_,?_,fun fault hfault => ?_⟩
  · change (Relational.compile r (.ok s) (.cls c) _ 0).result.map Artifact.relational = _
    rw [Relational.compile_class hd,limit_eq]
    exact map_eq_ok.mpr ⟨t,ht,rfl⟩
  · rw [← hgraph]
    change (∃ g, (Graph.compile r (.ok s) (.cls c)).map Artifact.graph = .ok (.graph g)) ↔ _
    simp only [map_eq_ok,Artifact.graph.injEq,exists_eq_right]
  · exact hgraphError fault (map_eq_error.mp hfault)
  · change (∃ doc, (Document.compile r (.ok s) (.cls c) _ 0 false).map Artifact.document = .ok (.document doc)) ↔ _
    rw [hexpand]
    simp only [map_eq_ok,Artifact.document.injEq,exists_eq_right,hdocument,Expands,Nat.lt_succ_iff]
  · have hfault : (Document.compile r (.ok s) (.cls c) _ 0 false).map Artifact.document = .error fault := hfault
    rw [hexpand] at hfault
    simpa only [Nat.lt_succ_iff] using hdocumentError fault (map_eq_error.mp hfault)

/-- A snapshot of classes that can all be compiled fails only with a value that cannot be exported. -/
theorem Complete.snapshot (h : r.Complete) {record : Value} (hrecord : r.toRecord = .ok record)
    (hall : ∀ c ∈ r.classes, ∀ d, r.descriptor (.cls c) = .ok d →
      r.Expands s s.maxDepth c ∧ (d.embedded = false → ∀ link ∈ d.links, d.unknownCopies link.2 = []))
    {fault : Error} (hfault : r.snapshotText (.ok s) = .error fault) : ∃ failure, fault = .failure failure := by
  rcases bind_eq_error.mp hfault with hfault | ⟨compiled,_,hfault⟩
  · obtain ⟨c,hc,hfault⟩ := exists_of_mapM_error hfault
    obtain ⟨d,hcompiles⟩ := h.compiles s none hc
    obtain ⟨hexpands,hcopies⟩ := hall c hc d hcompiles.descriptor
    rw [artifactsOf,hcompiles.descriptor,ok_bind] at hfault
    rcases bind_eq_error.mp hfault with hfault | ⟨_,_,hfault⟩
    · obtain ⟨b,hb,hfault⟩ := exists_of_mapM_error hfault
      have hartifact : ∃ artifact, (Artifact.compile r (.ok s) (.cls c) none b).result = .ok artifact := by
        cases b with
        | document =>
          obtain ⟨doc,hdoc⟩ := hcompiles.document.mpr hexpands
          exact ⟨_,hdoc⟩
        | graph =>
          have hembedded : d.embedded = false := by
            by_contra hembedded
            rw [if_pos (by simpa using hembedded)] at hb
            simp at hb
          obtain ⟨g,hg⟩ := hcompiles.graph.mpr (hcopies hembedded)
          exact ⟨_,hg⟩
        | relational =>
          obtain ⟨t,ht⟩ := hcompiles.relational
          exact ⟨_,ht⟩
      obtain ⟨artifact,hartifact⟩ := hartifact
      rw [hartifact,ok_bind] at hfault
      rcases bind_eq_error.mp hfault with hfault | ⟨_,_,hfault⟩
      · exact ⟨_,Artifact.toRecord_error hfault⟩
      · cases hfault
    · cases hfault
  · rw [hrecord,ok_bind] at hfault
    exact ⟨_,Json.ofValue_error (map_eq_error.mp hfault)⟩

/-- In a registry that was frozen, every registered class is compiled to a table at every limit. It is compiled to a
graph just where its edges copy properties of its own, and to a document just where all classes that are embedded in it
within the limit are registered; otherwise the error is about such an edge, or such a class. Where all that holds, a
snapshot fails only with a value that cannot be exported. -/
theorem frozen_compiles (hfreeze : r.freeze = .ok (fingerprint, frozen)) (s : Settings) :
    (∀ c ∈ frozen.classes, ∀ maxDepth, ∃ d, Compiles frozen s maxDepth c d) ∧
    ((∀ c ∈ frozen.classes, ∀ d, frozen.descriptor (.cls c) = .ok d →
        frozen.Expands s s.maxDepth c ∧ (d.embedded = false → ∀ link ∈ d.links, d.unknownCopies link.2 = [])) →
      ∀ fault, frozen.snapshotText (.ok s) = .error fault → ∃ failure, fault = .failure failure) := by
  obtain ⟨record,hrecord⟩ := freeze_toRecord hfreeze
  have hcomplete := complete_of_toRecord hrecord
  refine ⟨fun c hc maxDepth => hcomplete.compiles s maxDepth hc,fun hall fault hfault => ?_⟩
  exact hcomplete.snapshot hrecord hall hfault

/-- Where registered classes embed registered classes only, so does all that is embedded in them. -/
theorem EveryProperty.expands (hall : r.EveryProperty fun p => ∀ e, p.embedded? = some e → r.isRegistered e = true)
    (hc : r.isRegistered c = true) (s : Settings) (limit : Nat) : r.Expands s limit c := by
  have hreached (path : List Nat) : ∀ (inside embedded : Bool) (c c' : Class Value), r.isRegistered c = true →
      Document.classAt? r s.documentIdField inside c path = some (embedded, c') → r.isRegistered c' = true := by
    induction path with
    | nil =>
      intro inside embedded c c' hc hclass
      cases hclass
      exact hc
    | cons i path ih =>
      intro inside embedded c c' _ hclass
      rw [Document.classAt?_cons] at hclass
      obtain ⟨e,he,hclass⟩ := Option.bind_eq_some_iff.mp hclass
      obtain ⟨d,p,hd,hp,he⟩ := Document.nestedAt?_eq_some he
      exact ih true embedded e c' (hall.described hd p hp.1 e he) hclass
  exact fun path embedded c' _ hclass => hreached path false embedded c c' hc hclass

/-- Parcels embed an address and copy their size onto the edges between them. They are compiled for every backend at
every limit. -/
theorem frozen_compiles_parcels : declareParcels = .ok parcels ∧
    ∃ fingerprint frozen, parcels.freeze = .ok (fingerprint, frozen) ∧
    Document.classAt? frozen "_id" false parcel [2] = some (true, address) ∧
    parcelDescriptor.links.map (·.2.edgeProperties) = [["size"]] ∧
    (∀ (maxDepth : Option Nat) backend, ∃ artifact,
      (Artifact.compile frozen (.ok Settings.defaults) (.cls parcel) (maxDepth.map Int.ofNat) backend).result = .ok artifact) ∧
    ∀ fault, frozen.snapshotText (.ok Settings.defaults) = .error fault → ∃ failure, fault = .failure failure := by
  obtain ⟨fingerprint,hfreeze⟩ := parcels_freeze
  obtain ⟨hcompiles,hsnapshot⟩ := frozen_compiles hfreeze Settings.defaults
  have hexpands (c : Class Value) (hc : c ∈ parcels.classes) (limit : Nat) :
      (parcels.withFingerprint (some fingerprint)).Expands Settings.defaults limit c := by
    have hregistered : (parcels.withFingerprint (some fingerprint)).isRegistered c = true :=
      isRegistered_of_mem (r := parcels) (List.mem_mergeSort.mpr hc)
    have hembeds : parcels.EveryProperty fun p => ∀ e, p.embedded? = some e → parcels.isRegistered e = true := by
      refine parcels_everyProperty.mpr ⟨fun _ he => ?_,fun _ he => ?_,fun _ he => ?_,fun _ he => ?_,fun _ he => ?_⟩ <;>
        cases he
      rfl
    exact EveryProperty.expands (r := parcels.withFingerprint (some fingerprint))
      (withFingerprint_everyProperty.mpr hembeds) hregistered _ _
  have hcopies {c : Class Value} (hc : c ∈ parcels.classes) {d : Descriptor}
      (hd : (parcels.withFingerprint (some fingerprint)).descriptor (.cls c) = .ok d) :
      ∀ link ∈ d.links, d.unknownCopies link.2 = [] := by
    rw [withFingerprint_descriptor] at hd
    have hc : c ∈ [address, parcel] := hc
    rcases List.mem_pair.mp hc with rfl | rfl
    · cases addresses_merge.symm.trans (descriptor_registered hd)
      exact List.forall_mem_nil _
    · cases parcels_merge.symm.trans (descriptor_registered hd)
      exact List.forall_mem_singleton.mpr rfl
  refine ⟨parcels_declared,fingerprint,_,hfreeze,by with_unfolding_all rfl,rfl,fun maxDepth backend => ?_,
    hsnapshot fun c hc d hd => ⟨hexpands c hc _,fun _ => hcopies hc hd⟩⟩
  have hparcel : parcel ∈ parcels.classes := List.mem_cons_of_mem _ List.mem_cons_self
  obtain ⟨d,hd⟩ := hcompiles parcel hparcel maxDepth
  cases backend with
  | document =>
    obtain ⟨doc,hdoc⟩ := hd.document.mpr (hexpands parcel hparcel _)
    exact ⟨_,hdoc⟩
  | graph =>
    obtain ⟨g,hg⟩ := hd.graph.mpr (hcopies hparcel hd.descriptor)
    exact ⟨_,hg⟩
  | relational =>
    obtain ⟨t,ht⟩ := hd.relational
    exact ⟨_,ht⟩

/-- What declaring a tree for the shape of parts leaves; trees are not registered. -/
def shapedParts : Registry := { declarations := [(part, [("shape", { type := some (.cls Document.tree) })])] }

def shape : Property where
  key := "shape"
  type := .cls Document.tree
  classification := some (.single (.embedded Document.tree))

/-- Parts are frozen, and have no document, for the tree that is embedded in them is not registered. -/
theorem frozen_compiles_embedded :
    ({} : Registry).registerProperty (.cls part) (.str "shape") [("type", .type (.cls Document.tree))] = .ok shapedParts ∧
    ¬ ∀ (r frozen : Registry) (fingerprint : String), r.freeze = .ok (fingerprint, frozen) → ∀ c ∈ frozen.classes,
      ∀ (maxDepth : Option Nat) backend, ∃ artifact,
        (Artifact.compile frozen (.ok Settings.defaults) (.cls c) (maxDepth.map Int.ofNat) backend).result = .ok artifact := by
  refine ⟨by with_unfolding_all rfl,fun h => ?_⟩
  have hd : shapedParts.merge part = .ok (partDescriptor shape) := by with_unfolding_all rfl
  obtain ⟨fingerprint,hfreeze⟩ := parts_freeze rfl rfl hd rfl (Property.tells_of_none rfl rfl rfl)
  obtain ⟨artifact,hartifact⟩ := h shapedParts _ fingerprint hfreeze part List.mem_cons_self none .document
  rw [Artifact.compile_withFingerprint] at hartifact
  have hfails : (Artifact.compile shapedParts (.ok Settings.defaults) (.cls part) none .document).result =
      .error (.missing (.metadata "Tree")) := by with_unfolding_all rfl
  cases hfails.symm.trans hartifact

end Registry

end Trischema
