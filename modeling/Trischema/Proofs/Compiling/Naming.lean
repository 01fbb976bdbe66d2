import Trischema.Proofs.Compiling.Layouts
import Trischema.Proofs.Compiling.Validation
import Trischema.Proofs.Relational.Keys

/-!
The names that backends give to properties. Keys differ, and only the identifier is renamed; but it may be renamed to
the key of another property, and a join column may have the name of another column. These are all ways in which two
properties get one name.
-/

namespace Trischema

section Names

variable {ps : List Property} {renamed : Property → Bool} {name : String}

/-- The name of a property where an identifier is renamed. -/
def nameWith (renamed : Property → Bool) (name : String) (p : Property) : String :=
  if p.isIdentifier && renamed p then name else p.key

/-- Whether the identifier is renamed to the key of another property. -/
def Meets (renamed : Property → Bool) (name : String) (ps : List Property) : Prop :=
  (∃ i ∈ ps, i.isIdentifier = true ∧ renamed i = true) ∧ ∃ p ∈ ps, p.isIdentifier = false ∧ p.key = name

theorem nameWith_other {p : Property} (h : p.isIdentifier = false) : nameWith renamed name p = p.key := by
  rw [nameWith,h]
  rfl

/-- Properties with different keys, of which one is an identifier at most, have different names unless the identifier
is renamed to the key of another one. -/
theorem names_nodup (hkeys : (ps.map (·.key)).Nodup) (hids : (ps.filter (·.isIdentifier)).length ≤ 1) :
    (ps.map (nameWith renamed name)).Nodup ↔ ¬Meets renamed name ps := by
  constructor
  · rintro hnodup ⟨⟨i,hi,hid,hrenamed⟩,p,hp,hother,hkey⟩
    have hname : nameWith renamed name i = nameWith renamed name p := by
      rw [nameWith_other hother,hkey,nameWith,hid,hrenamed]
      rfl
    have hsame := List.inj_on_of_nodup_map hnodup hi hp hname
    rw [hsame,hother] at hid
    cases hid
  · intro hapart
    refine List.Nodup.map_on (fun p hp q hq hname => ?_) (List.Nodup.of_map _ hkeys)
    have hother {i q : Property} (hi : i ∈ ps) (hq : q ∈ ps) (hid : i.isIdentifier = true)
        (hqid : q.isIdentifier = false) (hname : nameWith renamed name i = q.key) : i = q := by
      cases hrenamed : renamed i with
      | true =>
        rw [nameWith,hid,hrenamed] at hname
        exact absurd ⟨⟨i,hi,hid,hrenamed⟩,q,hq,hqid,hname.symm⟩ hapart
      | false =>
        rw [nameWith,hid,hrenamed] at hname
        exact List.inj_on_of_nodup_map hkeys hi hq hname
    cases hpid : p.isIdentifier <;> cases hqid : q.isIdentifier
    · rw [nameWith_other hpid,nameWith_other hqid] at hname
      exact List.inj_on_of_nodup_map hkeys hp hq hname
    · rw [nameWith_other hpid] at hname
      exact (hother hq hp hqid hpid hname.symm).symm
    · rw [nameWith_other hqid] at hname
      exact hother hp hq hpid hqid hname
    · have hp : p ∈ ps.filter (·.isIdentifier) := List.mem_filter.mpr ⟨hp,hpid⟩
      have hq : q ∈ ps.filter (·.isIdentifier) := List.mem_filter.mpr ⟨hq,hqid⟩
      match hi : ps.filter (·.isIdentifier) with
      | [] => simp [hi] at hp
      | [i] =>
        rw [hi,List.mem_singleton] at hp hq
        rw [hp,hq]
      | i :: j :: rest => simp [hi] at hids

end Names

section Exports

variable {α : Type}

theorem setNamed_new {entries : List (String × α)} {name : String} (h : name ∉ entries.map (·.1)) (a : α) :
    setNamed entries name a = entries ++ [(name, a)] := by
  induction entries with
  | nil => rfl
  | cons entry rest ih =>
    obtain ⟨k,b⟩ := entry
    rw [List.map_cons,List.mem_cons,not_or] at h
    rw [setNamed,if_neg (Ne.symm h.1),ih h.2]
    rfl

theorem setNamed_names (entries : List (String × α)) (name : String) (a : α) :
    (setNamed entries name a).map (·.1) =
      if name ∈ entries.map (·.1) then entries.map (·.1) else entries.map (·.1) ++ [name] := by
  induction entries with
  | nil => rfl
  | cons entry rest ih =>
    obtain ⟨k,b⟩ := entry
    rw [setNamed]
    by_cases hk : k = name
    · simp [hk]
    · rw [if_neg hk,List.map_cons,ih]
      by_cases hmem : name ∈ rest.map (·.1)
      · simp [hmem]
      · simp [hmem,Ne.symm hk]

theorem setNamed_nodup {entries : List (String × α)} (h : (entries.map (·.1)).Nodup) (name : String) (a : α) :
    ((setNamed entries name a).map (·.1)).Nodup := by
  rw [setNamed_names]
  split
  · exact h
  · rename_i hnew
    exact List.nodup_append.mpr ⟨h,List.nodup_singleton _,fun k hk k' hk' hsame =>
      hnew (by rw [← List.mem_singleton.mp hk',← hsame]; exact hk)⟩

theorem collapse_nodup (entries : List (String × α)) : ((collapse entries).map (·.1)).Nodup := by
  have hfold (found : List (String × α)) (h : (found.map (·.1)).Nodup) :
      ((entries.foldl (fun es entry => setNamed es entry.1 entry.2) found).map (·.1)).Nodup := by
    induction entries generalizing found with
    | nil => exact h
    | cons entry rest ih => exact ih _ (setNamed_nodup h entry.1 entry.2)
  exact hfold [] List.nodup_nil

/-- An export keeps all of its entries exactly when their names are different. -/
theorem collapse_eq_self (entries : List (String × α)) : collapse entries = entries ↔ (entries.map (·.1)).Nodup := by
  constructor
  · intro h
    rw [← h]
    exact collapse_nodup entries
  · have hfold (found rest : List (String × α)) (h : ((found ++ rest).map (·.1)).Nodup) :
        rest.foldl (fun es entry => setNamed es entry.1 entry.2) found = found ++ rest := by
      induction rest generalizing found with
      | nil => exact (List.append_nil _).symm
      | cons entry rest ih =>
        have hnew : entry.1 ∉ found.map (·.1) := by
          rw [List.map_append,List.map_cons,List.nodup_middle,List.nodup_cons] at h
          exact fun hmem => h.1 (List.mem_append_left _ hmem)
        rw [List.foldl_cons,setNamed_new hnew,ih _ (by rwa [List.append_assoc]),List.append_assoc]
        rfl
    exact hfold [] entries

end Exports

variable {r : Registry} {s : Settings} {c : Class Value} {d : Descriptor}

theorem Registry.descriptor_names (hd : r.descriptor (.cls c) = .ok d) (renamed : Property → Bool) (name : String)
    (keep : Property → Bool) : ((d.properties.filter keep).map (nameWith renamed name)).Nodup ↔
      ¬Meets renamed name (d.properties.filter keep) := by
  have hmerge := descriptor_registered hd
  refine names_nodup ((List.filter_sublist.map _).nodup (merge_keys_nodup hmerge)) ?_
  have hids : d.identifiers.length ≤ 1 := (merge_identifiers_length hmerge).1
  exact Nat.le_trans (List.filter_sublist.filter _).length_le hids

theorem Renaming.ofIdentifier_eq (idField name : String) :
    ofIdentifier idField name = nameWith (fun p => p.key == idField) name := rfl

namespace Document

variable {maxDepth : Option Int} {depth : Int} {embedded : Bool} {doc : Document}

/-- The fields of a schema that is no placeholder have the names of the properties that are kept. -/
theorem compile_fieldNames (hd : r.descriptor (.cls c) = .ok d)
    (h : compile r (.ok s) (.cls c) maxDepth depth embedded = .ok doc) (hwhole : doc.isPlaceholder = false) :
    doc.hasId = keepsId d embedded ∧ doc.fieldNames =
      (d.properties.filter fun p => keepsId d embedded || !p.isIdentifier).map
        (nameWith (fun _ => true) s.documentIdField) := by
  obtain ⟨limit,hlimit,_⟩ := bind_eq_ok.mp h
  rw [compile_expand hlimit] at h
  cases hlevels : levelsFrom depth limit with
  | zero =>
    rw [hlevels] at h
    cases h
    cases hwhole
  | succ levels =>
    rw [hlevels,expand_level] at h
    obtain ⟨d',hlevel⟩ := level_eq_ok.mp h
    cases hd.symm.trans hlevel.descriptor
    refine ⟨hlevel.hasId,?_⟩
    have hnames : (keptProperties d (keepsId d embedded) s.documentIdField).map (·.1) = doc.fieldNames := by
      refine map_eq_of_forall₂ hlevel.fields fun entry f hf => ?_
      obtain ⟨k,shape,_,_,rfl⟩ := fieldOf_eq_ok.mp hf
      rfl
    rw [← hnames,keptProperties,List.map_map]
    refine List.map_congr_left fun p _ => ?_
    rw [nameWith,Bool.and_true]
    rfl

theorem fieldRecords_names (fields : List (Field Document)) :
    (fieldRecords fields).map (·.1) = fields.map (·.name) := by
  rw [fieldRecords_eq,List.map_map]
  rfl

end Document

theorem Graph.propertyOf_name {p : Property} {name : String} {n : NodeProperty} (h : propertyOf name p = .ok n) :
    n.name = name := by
  rw [propertyOf] at h
  split at h
  · cases h
    rfl
  · cases h
    rfl
  · cases h

namespace Relational

theorem joinColumnOf_none {rel : Relationship Value} (h : rel.cardinality = none) : joinColumnOf rel = none := by
  unfold joinColumnOf
  rw [h]
  cases rel.owner <;> rfl

theorem relationsOf_cons {key : String} {rel : Relationship Value} {rest : List (String × Relationship Value)}
    {relations : List Relation} (h : (relationsOf r c ((key, rel) :: rest)).result = .ok relations) :
    (rel.cardinality = none ∧ (relationsOf r c rest).result = .ok relations) ∨
      ∃ kind first others, rel.cardinality = some kind ∧ relationOf r c key rel kind = .ok first ∧
        relations = first :: others ∧ (relationsOf r c rest).result = .ok others := by
  rw [relationsOf] at h
  split at h
  · exact .inl ⟨‹_›,h⟩
  · rename_i kind hkind
    cases hof : relationOf r c key rel kind with
    | error e =>
      rw [hof] at h
      cases h
    | ok first =>
      rw [hof] at h
      obtain ⟨others,hothers,rfl⟩ := map_eq_ok.mp h
      exact .inr ⟨kind,first,others,hkind,hof,rfl,hothers⟩

theorem relationOf_ok {key : String} {rel : Relationship Value} {kind : Choice Cardinality Value} {relation : Relation}
    (h : relationOf r c key rel kind = .ok relation) :
    relation.name = key ∧ relation.kind = kind ∧ relation.joinColumn = joinColumnOf rel ∧
      relation.joinTable = joinTableOf rel := by
  obtain ⟨target,_,h⟩ := bind_eq_ok.mp h
  cases pure_eq_ok.mp h
  exact ⟨rfl,rfl,rfl,rfl⟩

theorem relationsOf_names {links : List (String × Relationship Value)} {relations : List Relation}
    (h : (relationsOf r c links).result = .ok relations) {relation : Relation} (hrelation : relation ∈ relations) :
    relation.name ∈ links.map (·.1) := by
  induction links generalizing relations with
  | nil =>
    cases h
    cases hrelation
  | cons link rest ih =>
    obtain ⟨key,rel⟩ := link
    rcases relationsOf_cons h with ⟨_,hrest⟩ | ⟨kind,first,others,_,hfirst,rfl,hrest⟩
    · exact List.mem_cons_of_mem _ (ih hrest hrelation)
    · rcases List.mem_cons.mp hrelation with rfl | hrelation
      · exact List.mem_cons.mpr (.inl (relationOf_ok hfirst).1)
      · exact List.mem_cons_of_mem _ (ih hrest hrelation)

/-- Under the key of a link stands its own relation, or none where the link has no cardinality. -/
theorem relationsOf_find {links : List (String × Relationship Value)} {relations : List Relation}
    (h : (relationsOf r c links).result = .ok relations) (hkeys : (links.map (·.1)).Nodup) {key : String}
    {rel : Relationship Value} (hlink : (key, rel) ∈ links) :
    (rel.cardinality = none ∧ relations.find? (·.name == key) = none) ∨
      ∃ kind relation, rel.cardinality = some kind ∧ relationOf r c key rel kind = .ok relation ∧
        relations.find? (·.name == key) = some relation := by
  induction links generalizing relations with
  | nil => cases hlink
  | cons link rest ih =>
    obtain ⟨first,rel'⟩ := link
    obtain ⟨hfirst,hkeys⟩ := List.nodup_cons.mp hkeys
    rcases relationsOf_cons h with ⟨hnone,hrest⟩ | ⟨kind,relation,others,hkind,hof,rfl,hrest⟩
    · rcases List.mem_cons.mp hlink with heq | hlink
      · cases heq
        refine .inl ⟨hnone,List.find?_eq_none.mpr fun relation hrelation hname => ?_⟩
        have hnamed := relationsOf_names hrest hrelation
        rw [beq_iff_eq.mp hname] at hnamed
        exact hfirst hnamed
      · exact ih hrest hkeys hlink
    · have hname := (relationOf_ok hof).1
      rcases List.mem_cons.mp hlink with heq | hlink
      · cases heq
        refine .inr ⟨kind,relation,hkind,hof,?_⟩
        rw [List.find?_cons_of_pos (p := fun r : Relation => r.name == key) (by rw [hname,beq_self_eq_true])]
      · have hother : ¬(relation.name == key) = true := by
          rw [hname,beq_iff_eq]
          rintro rfl
          exact hfirst (List.mem_map.mpr ⟨_,hlink,rfl⟩)
        rw [List.find?_cons_of_neg (p := fun r : Relation => r.name == key) hother]
        exact ih hrest hkeys hlink

/-- The relation that is found under the key of a link has the join column of that link. -/
theorem relationsOf_joinColumn {links : List (String × Relationship Value)} {relations : List Relation}
    (h : (relationsOf r c links).result = .ok relations) (hkeys : (links.map (·.1)).Nodup) {key : String}
    {rel : Relationship Value} (hlink : (key, rel) ∈ links) :
    (relations.find? (·.name == key)).bind (·.joinColumn) = joinColumnOf rel := by
  rcases relationsOf_find h hkeys hlink with ⟨hnone,hfound⟩ | ⟨_,_,_,hof,hfound⟩
  · rw [hfound,joinColumnOf_none hnone]
    rfl
  · rw [hfound]
    exact (relationOf_ok hof).2.2.1

theorem compile_table {maxDepth : Option Int} {t : Relational} (hd : r.descriptor (.cls c) = .ok d)
    (h : (compile r (.ok s) (.cls c) maxDepth 0).result = .ok t) : (ofDescriptor r s d).result = .ok t := by
  rw [compile_class hd] at h
  cases hlimit : Settings.limit (.ok s) maxDepth with
  | error e =>
    rw [hlimit] at h
    cases h
  | ok limit =>
    rw [hlimit] at h
    exact h

end Relational

namespace TableBinding

open Relational

variable {t : Relational} {b : TableBinding} {p q : Property}

/-- The name of the column in which a table keeps a property; a relation that is kept elsewhere has none. -/
def storedName? (s : Settings) (p : Property) : Option String :=
  match p.relationship with
  | some rel => (joinColumnOf rel).map fun
    | .named name => name
    | .byConvention => p.key ++ "_id"
  | none => some (columnName s p)

/-- Whether a table engine, which does not tell capitals from other letters, takes the columns of two properties for
one. -/
def Share (s : Settings) (p q : Property) : Prop :=
  ∃ name name', storedName? s p = some name ∧ storedName? s q = some name' ∧ name.toLower = name'.toLower

theorem isRelationship_iff (hd : r.descriptor (.cls c) = .ok d) (hp : p ∈ d.properties) :
    p.isRelationship = p.relationship.isSome := by
  obtain ⟨k,hk,hlink⟩ := Registry.merge_classified (Registry.descriptor_registered hd) hp
  rw [Property.isRelationship,hk,Bool.eq_iff_iff,Option.isSome_iff_exists]
  constructor
  · intro h
    split at h
    · rename_i rel hrel
      exact ⟨rel,(hlink rel).mp (Option.some.inj hrel)⟩
    · cases h
  · rintro ⟨rel,hrel⟩
    rw [(hlink rel).mpr hrel]

theorem mem_links {rel : Relationship Value} (hd : r.descriptor (.cls c) = .ok d) (hp : p ∈ d.properties)
    (hrel : p.relationship = some rel) : (p.key, rel) ∈ d.links := by
  have hlink : p.isRelationship = true := by rw [isRelationship_iff hd hp,hrel]; rfl
  exact List.mem_filterMap.mpr ⟨p,List.mem_filter.mpr ⟨hp,hlink⟩,by rw [hrel]; rfl⟩

theorem links_keys {ps : List Property} (hkeys : (ps.map (·.key)).Nodup) :
    ((ps.filterMap fun p => p.relationship.map fun rel => (p.key, rel)).map (·.1)).Nodup := by
  induction ps with
  | nil => exact List.nodup_nil
  | cons p rest ih =>
    obtain ⟨hnew,hkeys⟩ := List.nodup_cons.mp hkeys
    cases hrel : p.relationship with
    | none =>
      rw [List.filterMap_cons_none (by rw [hrel]; rfl)]
      exact ih hkeys
    | some rel =>
      rw [List.filterMap_cons_some (by rw [hrel]; rfl),List.map_cons,List.nodup_cons]
      refine ⟨fun hmem => hnew ?_,ih hkeys⟩
      obtain ⟨link,hlink,hkey⟩ := List.mem_map.mp hmem
      obtain ⟨q,hq,hlink⟩ := List.mem_filterMap.mp hlink
      obtain ⟨_,_,rfl⟩ := Option.map_eq_some_iff.mp hlink
      exact List.mem_map.mpr ⟨q,hq,hkey⟩

/-- A join column has the name that is declared for it. -/
theorem joinColumn?_name {rel : Relationship Value} (hd : r.descriptor (.cls c) = .ok d)
    (ht : (ofDescriptor r s d).result = .ok t) (hp : p ∈ d.properties) (hrel : p.relationship = some rel) :
    (joinColumn? t p.key).map (·.name) = storedName? s p := by
  obtain ⟨relations,hrelations,ht⟩ := bind_eq_ok.mp ht
  obtain ⟨columns,_,ht⟩ := bind_eq_ok.mp ht
  cases pure_eq_ok.mp ht
  have hkeys : (d.links.map (·.1)).Nodup :=
    links_keys ((List.filter_sublist.map _).nodup (Registry.merge_keys_nodup (Registry.descriptor_registered hd)))
  have hjoin := relationsOf_joinColumn hrelations hkeys (mem_links hd hp hrel)
  rw [joinColumn?,relation?,hjoin,storedName?,hrel,Option.map_map]
  rfl

theorem columnsFor_names {ps : List Property} {entries : List (String × Column)} (h : columnsFor t ps = .ok entries)
    (hscalar : ∀ p ∈ ps, p.isRelationship = false → ∀ column, columnFor t p = .ok column →
      storedName? s p = some column.name)
    (hlink : ∀ p ∈ ps, p.isRelationship = true → (joinColumn? t p.key).map (·.name) = storedName? s p) :
    entries.map (fun entry => (entry.1, entry.2.name)) =
      ps.filterMap fun p => (storedName? s p).map fun name => (p.key, name) := by
  induction ps generalizing entries with
  | nil =>
    cases h
    rfl
  | cons p rest ih =>
    have hrest {others : List (String × Column)} (hothers : columnsFor t rest = .ok others) :=
      ih hothers (fun q hq => hscalar q (List.mem_cons_of_mem _ hq)) fun q hq => hlink q (List.mem_cons_of_mem _ hq)
    rw [columnsFor] at h
    split at h
    · rename_i hrelationship
      obtain ⟨others,hothers,h⟩ := bind_eq_ok.mp h
      cases pure_eq_ok.mp h
      have hname := hlink p List.mem_cons_self hrelationship
      rw [List.map_append,hrest hothers,List.filterMap_cons,← hname]
      cases joinColumn? t p.key <;> rfl
    · rename_i hrelationship
      obtain ⟨column,hcolumn,h⟩ := bind_eq_ok.mp h
      obtain ⟨others,hothers,h⟩ := bind_eq_ok.mp h
      cases pure_eq_ok.mp h
      have hname := hscalar p List.mem_cons_self (Bool.not_eq_true _ ▸ hrelationship) column hcolumn
      rw [List.map_cons,hrest hothers,List.filterMap_cons,hname]
      rfl

/-- The columns of a table, with the keys of the properties that are kept in them. -/
theorem columns_names (hd : r.descriptor (.cls c) = .ok d) (ht : (ofDescriptor r s d).result = .ok t)
    (hb : ofSchema d t = .ok b) : b.columns.map (fun entry => (entry.1, entry.2.name)) =
      d.properties.filterMap fun p => (storedName? s p).map fun name => (p.key, name) := by
  have hmerge := Registry.descriptor_registered hd
  obtain ⟨entries,hentries,hb⟩ := bind_eq_ok.mp hb
  cases pure_eq_ok.mp hb
  refine columnsFor_names hentries (fun p hp hscalar column hcolumn => ?_) fun p hp hlink => ?_
  · have hnone : p.relationship = none := by
      rw [isRelationship_iff hd hp] at hscalar
      simpa using hscalar
    have hname := (columnFor_name (ofDescriptor_compiled ht) (Registry.merge_keys_nodup hmerge)
      (Registry.merge_identifiers_length hmerge).1 hp hcolumn).2
    rw [storedName?,hnone,hname]
  · rw [isRelationship_iff hd hp] at hlink
    obtain ⟨rel,hrel⟩ := Option.isSome_iff_exists.mp hlink
    exact joinColumn?_name hd ht hp hrel

/-- The columns of a table are told apart exactly when no two properties share one. -/
theorem columns_apart (hd : r.descriptor (.cls c) = .ok d) (ht : (ofDescriptor r s d).result = .ok t)
    (hb : ofSchema d t = .ok b) : (b.columns.map fun entry => entry.2.name.toLower).Nodup ↔
      ∀ p ∈ d.properties, ∀ q ∈ d.properties, p ≠ q → ¬Share s p q := by
  have hnodup : d.properties.Nodup :=
    List.Nodup.of_map _ (Registry.merge_keys_nodup (Registry.descriptor_registered hd))
  have hnames : (b.columns.map fun entry => entry.2.name.toLower) =
      d.properties.filterMap fun p => (storedName? s p).map String.toLower := by
    have hpairs := congrArg (List.map fun entry => entry.2.toLower) (columns_names hd ht hb)
    rw [List.map_map,List.map_filterMap] at hpairs
    refine hpairs.trans (List.filterMap_congr fun p _ => ?_)
    rw [Option.map_map]
    rfl
  rw [hnames,List.Nodup,List.pairwise_filterMap]
  have happly (p q : Property) : (∀ name, (storedName? s p).map String.toLower = some name → ∀ name',
      (storedName? s q).map String.toLower = some name' → name ≠ name') ↔ ¬Share s p q := by
    constructor
    · rintro happly ⟨name,name',hname,hname',hsame⟩
      exact happly _ (by rw [hname]; rfl) _ (by rw [hname']; rfl) hsame
    · rintro hshare name hname name' hname' rfl
      obtain ⟨n,hn,rfl⟩ := Option.map_eq_some_iff.mp hname
      obtain ⟨m,hm,hsame⟩ := Option.map_eq_some_iff.mp hname'
      exact hshare ⟨n,m,hn,hm,hsame.symm⟩
  simp only [happly]
  constructor
  · intro hapart p hp q hq hne
    have hsymm : Std.Symm fun p q : Property => ¬Share s p q :=
      ⟨fun _ _ h ⟨n,m,hn,hm,hsame⟩ => h ⟨m,n,hm,hn,hsame.symm⟩⟩
    exact hapart.forall hp hq hne
  · intro hapart
    exact hnodup.pairwise_of_forall_ne hapart

end TableBinding

open TableBinding in
/-- When the backends give different names to the properties of a class. The identifier may be renamed to the key of
another property, which each export then loses one of; and columns of a table may share a name, of which it is then
not created. In a table that is created the properties have columns of their own. -/
theorem names_distinct (hd : r.descriptor (.cls c) = .ok d) (s : Settings) :
    (∀ maxDepth depth embedded doc, Document.compile r (.ok s) (.cls c) maxDepth depth embedded = .ok doc →
      doc.isPlaceholder = false →
        (doc.fieldNames.Nodup ↔ ¬(doc.hasId = true ∧ Meets (fun _ => true) s.documentIdField d.properties)) ∧
        (collapse (Document.fieldRecords doc.fields) = Document.fieldRecords doc.fields ↔ doc.fieldNames.Nodup)) ∧
    (∀ graph, Graph.compile r (.ok s) (.cls c) = .ok graph → ∀ node ∈ graph.nodes,
      (node.propertyNames.Nodup ↔
        ¬Meets (·.key == s.documentIdField) s.graphIdField (d.properties.filter (!·.isRelationship))) ∧
      (collapse (node.properties.map Graph.entry) = node.properties.map Graph.entry ↔ node.propertyNames.Nodup)) ∧
    ∀ maxDepth t, (Relational.compile r (.ok s) (.cls c) maxDepth 0).result = .ok t →
      (t.columnNames.Nodup ↔
        ¬Meets (·.key == s.documentIdField) s.relationalIdField (d.properties.filter (!·.isRelationship))) ∧
      (collapse (t.columns.map Relational.entry) = t.columns.map Relational.entry ↔ t.columnNames.Nodup) ∧
      ∀ b, ofSchema d t = .ok b →
        b.columns.map (fun entry => (entry.1, entry.2.name)) =
          (d.properties.filterMap fun p => (storedName? s p).map fun name => (p.key, name)) ∧
        ((b.columns.map fun entry => entry.2.name.toLower).Nodup ↔
          ∀ p ∈ d.properties, ∀ q ∈ d.properties, p ≠ q → ¬Share s p q) ∧
        ∀ db, db.table? b.definition.name = none →
          (¬(b.columns.map fun entry => entry.2.name.toLower).Nodup → ∃ e, b.definition.create db = .error e) ∧
          ∀ db' (table : Table) i key column, b.definition.create db = .ok db' → table.columns = b.definition.empty.columns →
            b.columns[i]? = some (key, column) → table.position? column.name = some i := by
  refine ⟨fun maxDepth depth embedded doc hdoc hwhole => ?_,fun graph hgraph node hnode => ?_,fun maxDepth t ht => ?_⟩
  · obtain ⟨hhas,hnames⟩ := Document.compile_fieldNames hd hdoc hwhole
    refine ⟨?_,?_⟩
    · rw [hnames,Registry.descriptor_names hd,hhas,not_iff_not]
      cases Document.keepsId d embedded with
      | true => simp
      | false =>
        refine iff_of_false ?_ (fun h => Bool.false_ne_true h.1)
        rintro ⟨⟨i,hi,hid,_⟩,_⟩
        simp [hid] at hi
    · rw [collapse_eq_self,Document.fieldRecords_names]
      rfl
  · obtain ⟨_,hnodes,hproperties⟩ := Graph.compile_properties hd hgraph
    rw [hnodes,List.mem_singleton] at hnode
    subst hnode
    refine ⟨?_,?_⟩
    · rw [← Registry.descriptor_names hd,← Renaming.ofIdentifier_eq,Node.propertyNames]
      have hnames := map_eq_of_forall₂ (f := Renaming.ofIdentifier s.documentIdField s.graphIdField)
        (g := fun n : NodeProperty => n.name) hproperties fun p n hn => (Graph.propertyOf_name hn).symm
      rw [hnames]
    · rw [collapse_eq_self,List.map_map]
      rfl
  · have hcompiled := Relational.compile_columns hd ht
    refine ⟨?_,?_,fun b hb => ?_⟩
    · rw [← Registry.descriptor_names hd,← Renaming.ofIdentifier_eq,Relational.columnNames]
      have hnames := map_eq_of_forall₂ (f := Relational.columnName s) (g := fun column : Column => column.name)
        hcompiled.columns fun p column hcolumn => (Relational.columnOf_ok hcolumn).1.symm
      exact (List.Perm.of_eq hnames).nodup_iff.symm
    · rw [collapse_eq_self,List.map_map]
      rfl
    · have ht := Relational.compile_table hd ht
      have hbound {db db' : Database} (hnew : db.table? b.definition.name = none)
          (hcreate : b.definition.create db = .ok db') : Bound s d b := bound_of_created hd ht hb hcreate hnew
      refine ⟨columns_names hd ht hb,columns_apart hd ht hb,fun db hnew => ⟨fun hshared => ?_,?_⟩⟩
      · cases hcreate : b.definition.create db with
        | error e => exact ⟨e,rfl⟩
        | ok db' => exact absurd (hbound hnew hcreate).names hshared
      · intro db' table i key column hcreate htable hi
        exact (hbound hnew hcreate).position? htable hi

/-- A note, with a number besides its identifier. -/
def note : Class Value := ⟨.defined "Note" 0 [.builtin .object], none⟩

/-- Notes that are identified under the key that documents use. -/
def notes : Except Error (Registry × Descriptor × Relational) := do
  let r ← ({} : Registry).registerProperty (.cls note) (.str "_id")
    [("type", .type (.builtin .text)), ("is_identifier", .bool true)]
  let r ← r.registerProperty (.cls note) (.str "id") [("type", .type (.builtin .integer))]
  let d ← r.descriptor (.cls note)
  let t ← (Relational.compile r (.ok Settings.defaults) (.cls note) none 0).result
  return (r, d, t)

/-- The identifier of a note is renamed to the key of its number. -/
theorem names_distinct_notes : ∃ r d t, notes = .ok (r, d, t) ∧ r.descriptor (.cls note) = .ok d ∧
    t.columnNames = ["id", "id"] ∧
    Meets (·.key == "_id") "id" (d.properties.filter (!·.isRelationship)) := by
  have hok : (notes.toOption.any fun made => made.2.2.columnNames == ["id", "id"]) = true := by
    decide +kernel
  obtain ⟨⟨r,d,t⟩,hnotes,hnames⟩ := exists_ok_of_any hok
  have hnames : t.columnNames = ["id", "id"] := eq_of_beq hnames
  obtain ⟨hd,ht⟩ : r.descriptor (.cls note) = .ok d ∧
      (Relational.compile r (.ok Settings.defaults) (.cls note) none 0).result = .ok t := by
    obtain ⟨r₁,_,h⟩ := bind_eq_ok.mp hnotes
    obtain ⟨r₂,_,h⟩ := bind_eq_ok.mp h
    obtain ⟨d,hd,h⟩ := bind_eq_ok.mp h
    obtain ⟨t,ht,h⟩ := bind_eq_ok.mp h
    cases pure_eq_ok.mp h
    exact ⟨hd,ht⟩
  have hmeets := ((names_distinct hd Settings.defaults).2.2 none t ht).1
  rw [hnames] at hmeets
  refine ⟨r,d,t,hnotes,hd,hnames,?_⟩
  by_contra hapart
  exact absurd (hmeets.mpr hapart) (by decide)

/-- A stop of a line, which has a next one. -/
def stop : Class Value :=
  ⟨.defined "Stop" 1 [.builtin .entity, .builtin .object], none⟩

/-- The table of stops, which keep the next stop and its number. -/
def stops : Except Error (Descriptor × TableBinding) := do
  let r ← ({} : Registry).registerRelationship (.cls stop) (.str "next")
    [("edge_type", .str "NEXT"), ("target", .type (.cls stop)), ("cardinality", .str "many-to-one"),
      ("owner", .bool true)]
  let r ← r.registerProperty (.cls stop) (.str "next_id") [("type", .type (.builtin .text))]
  let d ← r.descriptor (.cls stop)
  let t ← (Relational.compile r (.ok Settings.defaults) (.cls stop) none 0).result
  let b ← TableBinding.ofSchema d t
  return (d, b)

/-- Whether the engine could not read a statement. -/
def isMisread : Except Error Database → Bool
  | .error (.failure .statement) => true
  | _ => false

theorem eq_of_isMisread {created : Except Error Database} (h : isMisread created = true) :
    created = .error (.failure .statement) := by
  unfold isMisread at h
  split at h
  · rfl
  · cases h

/-- The column of the next stop and that of its number have one name, and the table cannot be created. -/
theorem names_shared : ∃ d b, stops = .ok (d, b) ∧ d.keys.Nodup ∧
    b.columns.map (fun entry => (entry.1, entry.2.name)) =
      [("id", "id"), ("created_at", "created_at"), ("updated_at", "updated_at"), ("next", "next_id"),
        ("next_id", "next_id")] ∧
    b.definition.create [] = .error (.failure .statement) := by
  have hok : (stops.toOption.any fun made => decide made.1.keys.Nodup &&
      made.2.columns.map (fun entry => (entry.1, entry.2.name)) ==
        [("id", "id"), ("created_at", "created_at"), ("updated_at", "updated_at"), ("next", "next_id"),
          ("next_id", "next_id")] && isMisread (made.2.definition.create [])) = true := by
    decide +kernel
  obtain ⟨⟨d,b⟩,hstops,h⟩ := exists_ok_of_any hok
  simp only [Bool.and_eq_true,decide_eq_true_eq] at h
  obtain ⟨⟨hkeys,hnames⟩,hmisread⟩ := h
  exact ⟨d,b,hstops,hkeys,eq_of_beq hnames,eq_of_isMisread hmisread⟩

end Trischema
