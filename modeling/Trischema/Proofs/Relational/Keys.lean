import Trischema.Proofs.Relational.Columns
import Trischema.Repository.Records

/-!
The unique keys that a created table enforces: the identifier, and every unique group of a class that
lies in columns of properties which are no relationships.
-/

namespace Trischema

namespace TableBinding

open Relational

/-- A binding whose table was created for a descriptor. -/
structure Bound (s : Settings) (d : Descriptor) (b : TableBinding) : Prop where
  keys : d.keys.Nodup
  identifiers : d.identifiers.length ≤ 1
  compiled : Compiled s d b.schema
  names : (b.columns.map fun entry => entry.2.name.toLower).Nodup
  keeps : List.Forall₂ (Keeps s b.schema) (storedProperties b.schema d.properties) b.columns
  together : ∀ group ∈ b.schema.together, group ≠ []

theorem bound_of_created {r : Registry} {s : Settings} {d : Descriptor} {t : Relational} {b : TableBinding}
    {db db' : Database} {c : Class Value} (hd : r.descriptor (.cls c) = .ok d)
    (ht : (ofDescriptor r s d).result = .ok t) (hb : ofSchema d t = .ok b)
    (hcreate : b.definition.create db = .ok db') (hnew : db.table? b.definition.name = none) :
    Bound s d b := by
  have hmerge := Registry.descriptor_registered hd
  have hkeys := Registry.merge_keys_nodup hmerge
  have hids := (Registry.merge_identifiers_length hmerge).1
  have hcompiled := ofDescriptor_compiled ht
  obtain ⟨hreadable,hmeaningful,_⟩ := TableDefinition.create_new hcreate hnew
  have hnames := TableDefinition.isMeaningful_names hmeaningful
  rw [definition,List.map_map] at hnames
  have hexact : (b.columns.map fun entry => entry.2.name).Nodup := by
    refine List.Nodup.of_map String.toLower ?_
    rwa [List.map_map]
  obtain ⟨rfl,hkeeps⟩ := ofSchema_keeps hcompiled hkeys hids hb hexact
  exact ⟨hkeys,hids,hcompiled,hnames,hkeeps,fun _ => TableDefinition.isReadable_together hreadable⟩

/-- The cell in which a row keeps a property. -/
def cellOf (b : TableBinding) (row : Row) (key : String) : Cell :=
  match b.columns.findIdx? (·.1 == key) with
  | some i => Table.cellAt row.cells i
  | none => .null

/-- Whether two rows are equal, and not null, on all properties of a group. -/
def coincide (b : TableBinding) (group : List String) (x y : Row) : Bool :=
  group.all fun key => (b.cellOf x key).same (b.cellOf y key)

/-- Whether a group consists of properties that are no relationships. -/
def isScalarGroup (d : Descriptor) (group : List String) : Bool :=
  group.all fun key => (d.get? key).any (!·.isRelationship)

/-- Whether the columns at some places keep a group of properties, in its order. -/
def LiesAt (b : TableBinding) (group : List String) (places : List Nat) : Prop :=
  List.Forall₂ (fun key i => ∃ c, b.columns[i]? = some (key, c)) group places

namespace Bound

variable {s : Settings} {d : Descriptor} {b : TableBinding} {p : Property} {c : Column}

theorem columns_keys_nodup (h : Bound s d b) : (b.columns.map (·.1)).Nodup := by
  have hsame : (storedProperties b.schema d.properties).map (·.key) = b.columns.map (·.1) :=
    map_eq_of_forall₂ h.keeps fun _ _ hp => hp.1.symm
  rw [← hsame]
  exact (List.filter_sublist.map _).nodup h.keys

/-- A property that is no relationship has a column. -/
theorem exists_column (h : Bound s d b) (hp : p ∈ d.properties) (hscalar : p.isRelationship = false) :
    ∃ c, (p.key, c) ∈ b.columns ∧ columnOf (columnName s p) p = .ok c := by
  have hstored : p ∈ storedProperties b.schema d.properties :=
    mem_storedProperties.mpr ⟨hp,by simp [hscalar]⟩
  obtain ⟨⟨key,c⟩,hmem,hkey,hc⟩ := exists_right_of_forall₂ h.keeps hstored
  refine ⟨c,?_,by simpa [hscalar] using hc⟩
  rwa [← show key = p.key from hkey]

/-- The column of the identifier is what instances are looked up by. -/
theorem exists_primary (h : Bound s d b) (hp : p ∈ d.properties) (hidentifies : p.isIdentifier = true)
    (hscalar : p.isRelationship = false) : ∃ c, (p.key, c) ∈ b.columns ∧ columnOf (columnName s p) p = .ok c ∧
      c.primary = true ∧ b.primaryName = .ok c.name := by
  obtain ⟨c,hc,hcolumn⟩ := h.exists_column hp hscalar
  have hprimary : c.primary = true := by rw [(columnOf_ok hcolumn).2.2.2.1,hidentifies]
  refine ⟨c,hc,hcolumn,hprimary,?_⟩
  have hkept : p ∈ d.properties.filter (!·.isRelationship) := List.mem_filter.mpr ⟨hp,by rw [hscalar]; rfl⟩
  obtain ⟨c',hc',hcolumn'⟩ := exists_right_of_forall₂ h.compiled.columns hkept
  rw [hcolumn] at hcolumn'
  cases hcolumn'
  have hfound : b.schema.primaryKey?.isSome = true := List.find?_isSome.mpr ⟨c,hc',hprimary⟩
  obtain ⟨found,hfound⟩ := Option.isSome_iff_exists.mp hfound
  obtain ⟨q,hq,_,hqcolumn⟩ := h.compiled.column_mem (List.mem_of_find?_eq_some hfound)
  have hqid : q.isIdentifier = true := by
    rw [← (columnOf_ok hqcolumn).2.2.2.1]
    exact List.find?_some hfound
  rw [Descriptor.eq_of_identifier h.identifiers hq hp hqid hidentifies,hcolumn] at hqcolumn
  cases hqcolumn
  rw [primaryName,hfound]

/-- The place of the column that keeps a property. -/
theorem position? (h : Bound s d b) {t : Table} (ht : t.columns = b.definition.empty.columns) {i : Nat}
    {key : String} (hi : b.columns[i]? = some (key, c)) : t.position? c.name = some i := by
  rw [Table.position?,ht,TableDefinition.empty,definition,List.map_map,List.findIdx?_map]
  exact findIdx?_eq_of_nodup (f := fun entry : String × Column => entry.2.name.toLower) h.names hi

theorem cellOf_eq (h : Bound s d b) {i : Nat} {key : String} (hi : b.columns[i]? = some (key, c)) (row : Row) :
    b.cellOf row key = Table.cellAt row.cells i := by
  have hfound : b.columns.findIdx? (·.1 == key) = some i :=
    findIdx?_eq_of_nodup (f := fun entry : String × Column => entry.1) h.columns_keys_nodup hi
  rw [cellOf,hfound]

theorem get?_eq_some (h : Bound s d b) {key : String} :
    d.get? key = some p ↔ p ∈ d.properties ∧ p.key = key := by
  constructor
  · intro hp
    exact ⟨List.mem_of_find?_eq_some hp,by simpa using List.find?_some hp⟩
  · rintro ⟨hp,rfl⟩
    cases hfound : d.get? p.key with
    | none =>
      have hnone := List.find?_eq_none.mp hfound p hp
      simp at hnone
    | some q =>
      have hq : q.key = p.key := by simpa using List.find?_some hfound
      rw [Descriptor.eq_of_key h.keys (List.mem_of_find?_eq_some hfound) hp hq]

theorem isScalarGroup_iff (h : Bound s d b) {group : List String} :
    isScalarGroup d group = true ↔
      ∀ key ∈ group, ∃ p ∈ d.properties, p.isRelationship = false ∧ p.key = key := by
  simp only [isScalarGroup,List.all_eq_true,Option.any_eq_true,h.get?_eq_some,Bool.not_eq_true']
  refine forall₂_congr fun key _ => exists_congr fun p => ?_
  tauto

/-- The names that the compiler gives to properties which are no relationships. -/
def storedNames (s : Settings) (d : Descriptor) : Renaming :=
  (d.properties.filter (!·.isRelationship)).map fun p => (p.key, columnName s p)

theorem storedNames_lookup (h : Bound s d b) (hp : p ∈ d.properties) (hscalar : p.isRelationship = false) :
    (storedNames s d).lookup p.key = some (columnName s p) := by
  have hmem : p ∈ d.properties.filter (!·.isRelationship) := List.mem_filter.mpr ⟨hp,by simp [hscalar]⟩
  have hkeys : ((storedNames s d).map (·.1)).Nodup := by
    rw [storedNames,List.map_map]
    exact (List.filter_sublist.map _).nodup h.keys
  exact lookup_of_nodup hkeys (List.mem_map.mpr ⟨p,hmem,rfl⟩)

theorem covers_iff (h : Bound s d b) {key : String} : (storedNames s d).covers key = true ↔
    ∃ p ∈ d.properties, p.isRelationship = false ∧ p.key = key := by
  constructor
  · intro hcovers
    obtain ⟨name,hname⟩ := Option.isSome_iff_exists.mp hcovers
    obtain ⟨p,hp,heq⟩ := List.mem_map.mp (mem_of_lookup hname)
    obtain ⟨hp,hscalar⟩ := List.mem_filter.mp hp
    exact ⟨p,hp,by simpa using hscalar,congrArg Prod.fst heq⟩
  · rintro ⟨p,hp,hscalar,rfl⟩
    rw [Renaming.covers,h.storedNames_lookup hp hscalar]
    rfl

/-- A composite key of the schema is a group of properties under the names of their columns. -/
theorem mem_together (h : Bound s d b) {names : List String} : names ∈ b.schema.together ↔
    ∃ group ∈ d.together, isScalarGroup d group = true ∧ names = group.map (storedNames s d).apply := by
  rw [h.compiled.together,← storedNames,Renaming.groups,List.mem_map]
  simp only [List.mem_filter,List.all_eq_true,h.covers_iff,h.isScalarGroup_iff]
  constructor
  · rintro ⟨group,⟨hmem,hcovers⟩,rfl⟩
    exact ⟨group,hmem,hcovers,rfl⟩
  · rintro ⟨group,hmem,hcovers,rfl⟩
    exact ⟨group,⟨hmem,hcovers⟩,rfl⟩

/-- The columns of a group hold the cells of its properties. -/
theorem collide_places (h : Bound s d b) {group : List String} {places : List Nat} (hlies : b.LiesAt group places)
    (x y : Row) : Table.collide places x.cells y.cells = b.coincide group x y := by
  unfold LiesAt at hlies
  induction hlies with
  | nil => rfl
  | cons hcolumn _ ih =>
    obtain ⟨c,hi⟩ := hcolumn
    rw [Table.collide,List.all_cons,coincide,List.all_cons,h.cellOf_eq hi,h.cellOf_eq hi]
    exact congrArg _ ih

/-- The names of the columns of a group are found where the group lies. -/
theorem liesAt_positions (h : Bound s d b) {t : Table} (ht : t.columns = b.definition.empty.columns)
    {group : List String} (hgroup : isScalarGroup d group = true) :
    b.LiesAt group ((group.map (storedNames s d).apply).filterMap t.position?) := by
  rw [h.isScalarGroup_iff] at hgroup
  induction group with
  | nil => exact .nil
  | cons key rest ih =>
    obtain ⟨p,hp,hscalar,rfl⟩ := hgroup key List.mem_cons_self
    obtain ⟨c,hc,hcolumn⟩ := h.exists_column hp hscalar
    obtain ⟨i,hi⟩ := List.mem_iff_getElem?.mp hc
    have hname : (storedNames s d).apply p.key = c.name := by
      rw [Renaming.apply,h.storedNames_lookup hp hscalar,(columnOf_ok hcolumn).1]
      rfl
    rw [List.map_cons,hname,List.filterMap_cons_some (h.position? ht hi)]
    exact .cons ⟨c,hi⟩ (ih fun key hkey => hgroup key (List.mem_cons_of_mem _ hkey))

/-- The column at a place comes from a property, and from one that is no relationship if it is unique. -/
theorem unique_column (h : Bound s d b) {i : Nat} {key : String} (hi : b.columns[i]? = some (key, c))
    (hunique : c.unique = true ∨ c.primary = true) :
    ∃ p ∈ d.properties, p.isRelationship = false ∧ p.key = key ∧ c.unique = p.isUnique ∧
      c.primary = p.isIdentifier := by
  obtain ⟨p,hp,hkey,hc⟩ := getElem?_of_forall₂ h.keeps hi
  have hmem := (mem_storedProperties.mp (List.mem_of_getElem? hp)).1
  cases hscalar : p.isRelationship with
  | false =>
    have hcolumn := columnOf_ok (show columnOf (columnName s p) p = .ok c by simpa [hscalar] using hc)
    exact ⟨p,hmem,hscalar,hkey.symm,hcolumn.2.2.1,hcolumn.2.2.2.1⟩
  | true =>
    have hjoin : joinColumn? b.schema p.key = some c := by simpa [hscalar] using hc
    obtain ⟨j,_,hj⟩ := Option.map_eq_some_iff.mp hjoin
    rw [← hj] at hunique
    simp at hunique

theorem mem_uniqueGroups {d : Descriptor} {group : List String} : group ∈ Records.uniqueGroups d ↔
    (∃ p ∈ d.properties, p.unique = some true ∧ p.isIdentifier = false ∧ group = [p.key]) ∨
      group ∈ d.together := by
  simp only [Records.uniqueGroups,Descriptor.uniqueProperties,List.mem_append,List.mem_map,List.mem_filter]
  refine or_congr_left ⟨?_,?_⟩
  · rintro ⟨p,⟨hp,hunique⟩,rfl⟩
    rw [Bool.and_eq_true,Bool.not_eq_true',Option.getD_eq_iff] at hunique
    exact ⟨p,hp,hunique.1.resolve_right fun h => Bool.false_ne_true h.2,hunique.2,rfl⟩
  · rintro ⟨p,hp,hunique,hid,rfl⟩
    exact ⟨p,⟨hp,by simp [hunique,hid]⟩,rfl⟩

variable {t : Table}

theorem tableColumn (ht : t.columns = b.definition.empty.columns) {i : Nat} {tc : TableColumn} :
    t.columns[i]? = some tc ↔ ∃ key c, b.columns[i]? = some (key, c) ∧ tc = c.toTableColumn := by
  rw [ht,TableDefinition.empty,definition,List.map_map,List.getElem?_map,Option.map_eq_some_iff]
  constructor
  · rintro ⟨⟨key,c⟩,hi,rfl⟩
    exact ⟨key,c,hi,rfl⟩
  · rintro ⟨key,c,hi,rfl⟩
    exact ⟨(key, c),hi,rfl⟩

/-- When the column of the identifier does not number the rows, no column does. -/
theorem numberPosition?_eq_none (h : Bound s d b) (ht : t.columns = b.definition.empty.columns) {i : Nat}
    {key : String} (hi : b.columns[i]? = some (key, c)) (hprimary : c.primary = true)
    (hnumbers : c.toTableColumn.numbersRows = false) : t.numberPosition? = none := by
  obtain ⟨p,hp,_,hkey,_,hpid⟩ := h.unique_column hi (.inr hprimary)
  rw [Table.numberPosition?,List.findIdx?_eq_none_iff]
  intro tc htc
  obtain ⟨j,hj⟩ := List.mem_iff_getElem?.mp htc
  obtain ⟨key',c',hj',rfl⟩ := (tableColumn ht).mp hj
  rw [Bool.eq_false_iff]
  intro hnumbers'
  have hprimary' : c'.primary = true := (Bool.and_eq_true_iff.mp hnumbers').1
  obtain ⟨q,hq,_,hkey',_,hqid⟩ := h.unique_column hj' (.inr hprimary')
  have hqp : q = p :=
    Descriptor.eq_of_identifier h.identifiers hq hp (by rw [← hqid,hprimary']) (by rw [← hpid,hprimary])
  have hpair := List.inj_on_of_nodup_map h.columns_keys_nodup (List.mem_of_getElem? hi)
    (List.mem_of_getElem? hj') (by rw [← hkey,← hkey',hqp])
  cases hpair
  rw [hnumbers] at hnumbers'
  cases hnumbers'

/-- What is kept apart besides the numbers of rows: the identifier, unless it numbers them, and the unique groups
without relationships. -/
def KeptApart (d : Descriptor) (t : Table) (group : List String) : Prop :=
  (∃ p ∈ d.identifiers, p.isRelationship = false ∧ t.numberPosition? = none ∧ group = [p.key]) ∨
    group ∈ Records.uniqueGroups d ∧ isScalarGroup d group = true

/-- A key of the table keeps the group apart that lies in its columns. -/
theorem group_of_key (h : Bound s d b) (ht : t.columns = b.definition.empty.columns)
    (htogether : t.together = b.schema.together) {key : List Nat} (hkey : key ∈ t.keys) :
    ∃ group, b.LiesAt group key ∧ KeptApart d t group := by
  rcases Table.mem_keys.mp hkey with ⟨i,tc,htc,hnumbers,hunique,rfl⟩ | ⟨names,hnames,rfl⟩
  · obtain ⟨key,c,hi,rfl⟩ := (tableColumn ht).mp htc
    refine ⟨[key],.cons ⟨c,hi⟩ .nil,?_⟩
    cases hprimary : c.primary with
    | true =>
      obtain ⟨p,hp,hscalar,rfl,_,hpid⟩ := h.unique_column hi (.inr hprimary)
      have hid : p ∈ d.identifiers := List.mem_filter.mpr ⟨hp,by rw [← hpid,hprimary]⟩
      exact .inl ⟨p,hid,hscalar,h.numberPosition?_eq_none ht hi hprimary hnumbers,rfl⟩
    | false =>
      have hcunique : c.unique = true := by simpa [Column.toTableColumn,hprimary] using hunique
      obtain ⟨p,hp,hscalar,rfl,hpunique,hpid⟩ := h.unique_column hi (.inl hcunique)
      have hnotid : p.isIdentifier = false := by rw [← hpid,hprimary]
      have hdeclared : p.unique = some true := by
        rw [hcunique,Property.isUnique,hnotid] at hpunique
        simpa [Option.getD_eq_iff] using hpunique.symm
      refine .inr ⟨mem_uniqueGroups.mpr (.inl ⟨p,hp,hdeclared,hnotid,rfl⟩),?_⟩
      rw [h.isScalarGroup_iff]
      intro key hkey
      exact ⟨p,hp,hscalar,(List.mem_singleton.mp hkey).symm⟩
  · rw [htogether] at hnames
    obtain ⟨group,hgroup,hscalar,rfl⟩ := h.mem_together.mp hnames
    exact ⟨group,h.liesAt_positions ht hscalar,.inr ⟨mem_uniqueGroups.mpr (.inr hgroup),hscalar⟩⟩

theorem key_of_group (h : Bound s d b) (ht : t.columns = b.definition.empty.columns)
    (htogether : t.together = b.schema.together) {group : List String} (hgroup : KeptApart d t group) :
    ∃ key ∈ t.keys, b.LiesAt group key := by
  rcases hgroup with ⟨p,hp,hscalar,hnumber,rfl⟩ | ⟨hgroup,hscalar⟩
  · obtain ⟨hp,hid⟩ := List.mem_filter.mp hp
    obtain ⟨c,hc,hcolumn⟩ := h.exists_column hp hscalar
    obtain ⟨i,hi⟩ := List.mem_iff_getElem?.mp hc
    have htc := (tableColumn ht).mpr ⟨_,_,hi,rfl⟩
    have hnumbers := List.findIdx?_eq_none_iff.mp hnumber _ (List.mem_of_getElem? htc)
    have hprimary : c.primary = true := by rw [(columnOf_ok hcolumn).2.2.2.1,hid]
    refine ⟨[i],Table.mem_keys.mpr (.inl ⟨i,_,htc,hnumbers,?_,rfl⟩),.cons ⟨c,hi⟩ .nil⟩
    simp [Column.toTableColumn,hprimary]
  · rcases mem_uniqueGroups.mp hgroup with ⟨p,hp,hunique,hid,rfl⟩ | hgroup
    · obtain ⟨q,hq,hscalar,hkey⟩ := h.isScalarGroup_iff.mp hscalar p.key (List.mem_singleton_self _)
      cases Descriptor.eq_of_key h.keys hq hp hkey
      obtain ⟨c,hc,hcolumn⟩ := h.exists_column hp hscalar
      obtain ⟨i,hi⟩ := List.mem_iff_getElem?.mp hc
      have htc := (tableColumn ht).mpr ⟨_,_,hi,rfl⟩
      have hprimary : c.primary = false := by rw [(columnOf_ok hcolumn).2.2.2.1,hid]
      have hcunique : c.unique = true := by simp [(columnOf_ok hcolumn).2.2.1,Property.isUnique,hunique]
      refine ⟨[i],Table.mem_keys.mpr (.inl ⟨i,_,htc,?_,?_,rfl⟩),.cons ⟨c,hi⟩ .nil⟩
      · simp [Column.toTableColumn,TableColumn.numbersRows,hprimary]
      · simp [Column.toTableColumn,hprimary,hcunique]
    · refine ⟨_,Table.mem_keys.mpr (.inr ⟨_,?_,rfl⟩),h.liesAt_positions ht hscalar⟩
      rw [htogether]
      exact h.mem_together.mpr ⟨group,hgroup,hscalar,rfl⟩

theorem kept_ne_nil (h : Bound s d b) {group : List String} (hkept : KeptApart d t group) : group ≠ [] := by
  rcases hkept with ⟨p,_,_,_,rfl⟩ | ⟨hgroup,hscalar⟩
  · exact List.cons_ne_nil _ _
  · rcases mem_uniqueGroups.mp hgroup with ⟨p,_,_,_,rfl⟩ | hgroup
    · exact List.cons_ne_nil _ _
    · rintro rfl
      exact h.together [] (h.mem_together.mpr ⟨[],hgroup,hscalar,rfl⟩) rfl

/-- The columns where a group lies, in its order. -/
theorem entries_of_liesAt (ht : t.columns = b.definition.empty.columns) {group : List String} {places : List Nat}
    (hlies : b.LiesAt group places) : ∃ entries : List (String × Column), (∀ entry ∈ entries, entry ∈ b.columns) ∧
      entries.map (·.1) = group ∧ t.columnNames places = entries.map (·.2.name) := by
  unfold LiesAt at hlies
  induction hlies with
  | nil => exact ⟨[],List.forall_mem_nil _,rfl,rfl⟩
  | @cons key i group places hcolumn _ ih =>
    obtain ⟨c,hi⟩ := hcolumn
    obtain ⟨entries,hentries,rfl,hnames⟩ := ih
    have hname : (t.columns[i]?.map (·.name)) = some c.name := by
      rw [(tableColumn ht).mpr ⟨key,c,hi,rfl⟩]
      rfl
    have hcons : t.columnNames (i :: places) = c.name :: t.columnNames places := List.filterMap_cons_some hname
    refine ⟨(key, c) :: entries,List.forall_mem_cons.mpr ⟨List.mem_of_getElem? hi,hentries⟩,rfl,?_⟩
    rw [hcons,hnames]
    rfl

/-- Two rows are equal on a key of the table exactly when they coincide in the identifier, unless it numbers
the rows, or on a unique group of the class without relationships. -/
theorem collides_iff (h : Bound s d b) (ht : t.columns = b.definition.empty.columns)
    (htogether : t.together = b.schema.together) (x y : Row) :
    (∃ key ∈ t.keys, Table.collide key x.cells y.cells = true) ↔
      (∃ p ∈ d.identifiers, p.isRelationship = false ∧ t.numberPosition? = none ∧
        b.coincide [p.key] x y = true) ∨
      ∃ group ∈ Records.uniqueGroups d, isScalarGroup d group = true ∧ b.coincide group x y = true := by
  have hkept : (∃ key ∈ t.keys, Table.collide key x.cells y.cells = true) ↔
      ∃ group, KeptApart d t group ∧ b.coincide group x y = true := by
    constructor
    · rintro ⟨key,hkey,hcollide⟩
      obtain ⟨group,hlies,hkept⟩ := h.group_of_key ht htogether hkey
      rw [h.collide_places hlies] at hcollide
      exact ⟨group,hkept,hcollide⟩
    · rintro ⟨group,hkept,hcoincide⟩
      obtain ⟨key,hkey,hlies⟩ := h.key_of_group ht htogether hkept
      rw [← h.collide_places hlies] at hcoincide
      exact ⟨key,hkey,hcoincide⟩
  rw [hkept]
  constructor
  · rintro ⟨group,⟨p,hp,hscalar,hnumber,rfl⟩ | ⟨hgroup,hscalar⟩,hcoincide⟩
    · exact .inl ⟨p,hp,hscalar,hnumber,hcoincide⟩
    · exact .inr ⟨group,hgroup,hscalar,hcoincide⟩
  · rintro (⟨p,hp,hscalar,hnumber,hcoincide⟩ | ⟨group,hgroup,hscalar,hcoincide⟩)
    · exact ⟨_,.inl ⟨p,hp,hscalar,hnumber,rfl⟩,hcoincide⟩
    · exact ⟨group,.inr ⟨hgroup,hscalar⟩,hcoincide⟩

end Bound

end TableBinding

end Trischema
