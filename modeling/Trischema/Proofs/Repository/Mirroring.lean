import Mathlib.Data.List.Range
import Trischema.Proofs.Repository.Uniqueness
import Trischema.Proofs.Table.Encoding

/-!
Rows that keep the records of a class of scalars: the cells that a record is written to, what the table
has against them, and what is read back from them.
-/

namespace Trischema

namespace Property

/-- The kind of scalar of a property that holds one and is not restricted to some values. -/
def scalar? (p : Property) : Option Scalar :=
  match p.classification with
  | some (.single (.primitive s)) => some s
  | some (.single .identifier) => some .string
  | _ => none

/-- Whether a value is of the kind of a property; only identifiers are never absent. -/
def Admits (p : Property) (v : Value) : Prop :=
  ∃ s, p.scalar? = some s ∧ Column.Holds s v ∧ (p.isIdentifier = true → v ≠ .null)

theorem isRelationship_of_scalar {p : Property} (h : p.scalar?.isSome = true) : p.isRelationship = false := by
  rw [scalar?] at h
  rw [isRelationship]
  split at h <;> simp_all

end Property

/-- What is asked of a class whose instances are rows of scalars: texts for identifiers, nothing that must be
there, and unique groups of texts, whole numbers and truth values. -/
structure Descriptor.IsTabular (d : Descriptor) : Prop where
  scalars : ∀ p ∈ d.properties, p.scalar?.isSome = true
  optional : ∀ p ∈ d.properties, p.optional ≠ some false
  identifier : ∀ p ∈ d.properties, p.isIdentifier = true → p.scalar? = some .string
  groups : ∀ group ∈ Records.uniqueGroups d, ∀ key ∈ group,
    ∃ p ∈ d.properties, p.key = key ∧ ∃ s, p.scalar? = some s ∧ s.IsComparable

/-- Whether a record has a value of the right kind for every property, in their order. -/
structure Record.Fits (record : Record) (d : Descriptor) : Prop where
  keys : record.map (·.1) = d.keys
  admitted : ∀ p ∈ d.properties, p.Admits (record.field p.key)

/-- A record as it is read back from a table. -/
def Record.settled (record : Record) : Record := record.map fun (key, v) => (key, v.settled)

namespace Table

variable {t : Table} {names : List String} {positions : List Nat} {cells : List Cell}

theorem positions_eq_ok :
    t.positions names = .ok positions ↔ List.Forall₂ (fun name i => t.position? name = some i) names positions := by
  induction names generalizing positions with
  | nil =>
    rw [Table.positions,List.forall₂_nil_left_iff]
    exact ⟨fun h => (Except.ok.inj h).symm,fun h => by rw [h]⟩
  | cons name rest ih =>
    rw [Table.positions,List.forall₂_cons_left_iff]
    cases hname : t.position? name with
    | none => exact iff_of_false (fun h => by cases h) fun ⟨_,_,h,_⟩ => by cases h
    | some i =>
      simp only [bind_eq_ok,pure_eq_ok,ih]
      constructor
      · rintro ⟨is,his,rfl⟩
        exact ⟨i,is,rfl,his,rfl⟩
      · rintro ⟨_,is,hi,his,rfl⟩
        cases hi
        exact ⟨is,his,rfl⟩

/-- Setting all cells in their order puts the new ones in place of the old ones. -/
theorem setCells_range {old : List Cell} (h : old.length = cells.length) :
    setCells old ((List.range cells.length).zip cells) = cells := by
  have hfrom (before old cells : List Cell) (h : old.length = cells.length) :
      setCells (before ++ old) ((List.range' before.length cells.length).zip cells) = before ++ cells := by
    induction cells generalizing before old with
    | nil => rw [List.eq_nil_of_length_eq_zero h]; rfl
    | cons c rest ih =>
      match old with
      | [] => cases h
      | o :: old =>
        have hset : (before ++ o :: old).set before.length c = (before ++ [c]) ++ old := by simp
        have hrest := ih (before ++ [c]) old (Nat.succ.inj h)
        rw [List.length_append,List.length_singleton] at hrest
        rw [List.length_cons,List.range'_succ,List.zip_cons_cons,setCells,List.foldl_cons]
        change setCells ((before ++ o :: old).set before.length c) _ = _
        rw [hset,hrest,List.append_assoc,List.singleton_append]
  rw [List.range_eq_range']
  exact hfrom [] old cells h

end Table

namespace TableBinding

open Relational

/-- The cells of a record in the columns of a binding. -/
def cellsOf (b : TableBinding) (record : Record) : List Cell :=
  b.columns.map fun entry => (record.field entry.1).cell

/-- A binding whose table was created for a class of scalars with an identifier. -/
structure Tabular (s : Settings) (d : Descriptor) (b : TableBinding) (identifier : Property) : Prop where
  bound : Bound s d b
  tabular : d.IsTabular
  mem : identifier ∈ d.properties
  identifies : identifier.isIdentifier = true

theorem columnOf_scalar {name : String} {p : Property} {c : Column} {k : Scalar} (h : columnOf name p = .ok c)
    (hk : p.scalar? = some k) : c.type = .ofScalar k ∧ c.enum = none := by
  rw [Property.scalar?] at hk
  split at hk
  · rename_i hclass
    cases hk
    simp only [columnOf,hclass] at h
    cases pure_eq_ok.mp h
    exact ⟨rfl,rfl⟩
  · rename_i hclass
    cases hk
    simp only [columnOf,hclass] at h
    cases pure_eq_ok.mp h
    exact ⟨rfl,rfl⟩
  · cases hk

/-- The columns of a table stand in the order of its binding. -/
theorem Bound.positions_range {s : Settings} {d : Descriptor} {b : TableBinding} {t : Table} (h : Bound s d b)
    (ht : t.columns = b.definition.empty.columns) :
    t.positions (b.columns.map (·.2.name)) = .ok (List.range b.columns.length) := by
  rw [Table.positions_eq_ok,List.forall₂_map_left_iff,List.forall₂_iff_get]
  refine ⟨by rw [List.length_range],fun i hi _ => ?_⟩
  have hentry : b.columns[i]? = some (b.columns[i].1, b.columns[i].2) := List.getElem?_eq_getElem hi
  simpa using h.position? ht hentry

namespace Tabular

variable {s : Settings} {d : Descriptor} {b : TableBinding} {identifier : Property} {record : Record}
  {db : Database} {t : Table} {id : String}

theorem columns (h : Tabular s d b identifier) :
    List.Forall₂ (fun p entry => entry.1 = p.key ∧ columnOf (columnName s p) p = .ok entry.2)
      d.properties b.columns := by
  have hall : storedProperties b.schema d.properties = d.properties := by
    refine List.filter_eq_self.mpr fun p hp => ?_
    rw [Property.isRelationship_of_scalar (h.tabular.scalars p hp)]
    rfl
  have hkeeps := h.bound.keeps
  rw [hall] at hkeeps
  have hmem := (List.forall₂_and_left (p := (· ∈ d.properties)) _ _).mpr ⟨fun _ hp => hp,hkeeps⟩
  refine hmem.imp fun p entry ⟨hp,hkey,hcolumn⟩ => ⟨hkey,?_⟩
  rwa [Property.isRelationship_of_scalar (h.tabular.scalars p hp),if_neg Bool.false_ne_true] at hcolumn

/-- The value for a column is of the kind of the column, which asks for nothing else but its identifier. -/
theorem holds_entry (h : Tabular s d b identifier) (hrecord : record.Fits d) {entry : String × Column}
    (hentry : entry ∈ b.columns) : ∃ k, entry.2.type = .ofScalar k ∧ Column.Holds k (record.field entry.1) ∧
      entry.2.enum = none ∧ (entry.2.isRequired = true → record.field entry.1 ≠ .null) := by
  obtain ⟨p,hp,hkey,hcolumn⟩ := exists_left_of_forall₂ h.columns hentry
  obtain ⟨k,hk,hholds,hnull⟩ := hrecord.admitted p hp
  obtain ⟨htype,henum⟩ := columnOf_scalar hcolumn hk
  obtain ⟨_,hnullable,_,hprimary,_⟩ := columnOf_ok hcolumn
  rw [hkey]
  refine ⟨k,htype,hholds,henum,fun hrequired => hnull ?_⟩
  have hoptional := h.tabular.optional p hp
  rw [Column.isRequired,hnullable,hprimary] at hrequired
  simpa [hoptional] using hrequired

/-- What is bound for a record are its cells. -/
theorem parameters_cells (h : Tabular s d b identifier) (hrecord : record.Fits d) :
    ∃ bound, parameters record b.columns = .ok bound ∧ Cell.ofValues bound = .ok (b.cellsOf record) := by
  have hall : ∀ entry ∈ b.columns, ∃ k, entry.2.type = .ofScalar k ∧ Column.Holds k (record.field entry.1) := by
    intro entry hentry
    obtain ⟨k,htype,hholds,_⟩ := h.holds_entry hrecord hentry
    exact ⟨k,htype,hholds⟩
  rw [cellsOf]
  generalize b.columns = entries at hall
  induction entries with
  | nil => exact ⟨[],rfl,rfl⟩
  | cons entry rest ih =>
    obtain ⟨k,htype,hholds⟩ := hall entry List.mem_cons_self
    obtain ⟨v,hv,hcell⟩ := Column.encode_cell htype hholds
    obtain ⟨bound,hbound,hcells⟩ := ih fun e he => hall e (List.mem_cons_of_mem _ he)
    refine ⟨v :: bound,?_,?_⟩
    · rw [parameters,hv,hbound]
      rfl
    · rw [Cell.ofValues,hcell,hcells]
      rfl

/-- The cells that a record is written to are all cells of its row. -/
theorem named_eq (h : Tabular s d b identifier) (ht : t.columns = b.definition.empty.columns)
    (hrecord : record.Fits d) :
    b.named t record = .ok ((List.range (b.cellsOf record).length).zip (b.cellsOf record)) := by
  obtain ⟨bound,hbound,hcells⟩ := h.parameters_cells hrecord
  rw [named,hbound]
  change b.writtenCells t bound = _
  rw [writtenCells,h.bound.positions_range ht,hcells,cellsOf,List.length_map]
  rfl

theorem storeCells_eq (h : Tabular s d b identifier) (ht : t.columns = b.definition.empty.columns)
    (hrecord : record.Fits d) : t.storeCells (b.cellsOf record) = b.cellsOf record := by
  have hcolumns : t.columns = b.columns.map fun entry => entry.2.toTableColumn := by
    rw [ht,TableDefinition.empty,definition,List.map_map]
    rfl
  rw [Table.storeCells,hcolumns,cellsOf,List.zip_map',List.map_map]
  refine List.map_congr_left fun entry hentry => ?_
  obtain ⟨k,htype,hholds,_⟩ := h.holds_entry hrecord hentry
  exact Column.stored_cell htype hholds

/-- The column of the identifier holds texts, and is what instances are looked up by. -/
theorem exists_primary (h : Tabular s d b identifier) : ∃ (i : Nat) (c : Column),
    b.columns[i]? = some (identifier.key, c) ∧ c.type = .text ∧ c.primary = true ∧ b.primaryName = .ok c.name := by
  have hscalar := Property.isRelationship_of_scalar (h.tabular.scalars identifier h.mem)
  obtain ⟨c,hc,hcolumn,hprimary,hname⟩ := h.bound.exists_primary h.mem h.identifies hscalar
  obtain ⟨i,hi⟩ := List.mem_iff_getElem?.mp hc
  have htype := (columnOf_scalar hcolumn (h.tabular.identifier identifier h.mem h.identifies)).1
  exact ⟨i,c,hi,htype,hprimary,hname⟩

theorem numberPosition?_eq_none (h : Tabular s d b identifier) (ht : t.columns = b.definition.empty.columns) :
    t.numberPosition? = none := by
  obtain ⟨i,c,hi,htype,hprimary,_⟩ := h.exists_primary
  refine h.bound.numberPosition?_eq_none ht hi hprimary ?_
  rw [TableColumn.numbersRows,Column.toTableColumn,htype,hprimary]
  rfl

theorem newRow_eq (h : Tabular s d b identifier) (ht : t.columns = b.definition.empty.columns)
    (hrecord : record.Fits d) : t.newRow ((List.range (b.cellsOf record).length).zip (b.cellsOf record)) =
      .ok ⟨t.nextNumber, b.cellsOf record⟩ := by
  have hlength : (t.columns.map fun _ => Cell.null).length = (b.cellsOf record).length := by
    rw [ht,TableDefinition.empty,definition,cellsOf]
    simp only [List.length_map]
  rw [Table.newRow,Table.setCells_range hlength,h.storeCells_eq ht hrecord,Table.numbered,h.numberPosition?_eq_none ht]

theorem changedRow_eq (h : Tabular s d b identifier) (ht : t.columns = b.definition.empty.columns)
    (hrecord : record.Fits d) {old : Row} {before : Record} (hold : old.cells = b.cellsOf before) :
    t.changedRow old ((List.range (b.cellsOf record).length).zip (b.cellsOf record)) =
      .ok ⟨old.number, b.cellsOf record⟩ := by
  have hlength : old.cells.length = (b.cellsOf record).length := by
    rw [hold,cellsOf,cellsOf,List.length_map,List.length_map]
  simp only [Table.changedRow,Table.setCells_range hlength,h.storeCells_eq ht hrecord,Table.numbered,
    h.numberPosition?_eq_none ht]
  rfl

/-- The columns have nothing against the row of a record. -/
theorem accepted (h : Tabular s d b identifier) (ht : t.columns = b.definition.empty.columns)
    (hrecord : record.Fits d) : t.missing? (b.cellsOf record) = none ∧ t.refusing? (b.cellsOf record) = none := by
  have hcolumns : t.columns = b.columns.map fun entry => entry.2.toTableColumn := by
    rw [ht,TableDefinition.empty,definition,List.map_map]
    rfl
  rw [Table.missing?,Table.refusing?,hcolumns,cellsOf,List.zip_map',Option.map_eq_none_iff,Option.map_eq_none_iff,
    List.find?_eq_none,List.find?_eq_none,List.forall_mem_map,List.forall_mem_map]
  constructor
  · intro entry hentry
    obtain ⟨k,_,hholds,_,hnull⟩ := h.holds_entry hrecord hentry
    change ¬ entry.2.toTableColumn.lacks (record.field entry.1).cell = true
    rw [TableColumn.lacks,Bool.and_eq_true,Bool.and_eq_true,beq_iff_eq,Column.cell_eq_null hholds]
    rintro ⟨⟨hrequired,_⟩,hcell⟩
    exact hnull hrequired hcell
  · intro entry hentry
    obtain ⟨k,_,_,henum,_⟩ := h.holds_entry hrecord hentry
    have hallowed : entry.2.toTableColumn.allowed = none := by
      rw [Column.toTableColumn,Column.restriction,henum]
      split <;> rfl
    change ¬ (!entry.2.toTableColumn.admits (record.field entry.1).cell) = true
    rw [TableColumn.admits,hallowed]
    exact fun hfalse => Bool.false_ne_true hfalse

theorem cellOf_eq (h : Tabular s d b identifier) {row : Row} (hrow : row.cells = b.cellsOf record) {p : Property}
    (hp : p ∈ d.properties) : b.cellOf row p.key = (record.field p.key).cell := by
  obtain ⟨c,hc,_⟩ := h.bound.exists_column hp (Property.isRelationship_of_scalar (h.tabular.scalars p hp))
  obtain ⟨i,hi⟩ := List.mem_iff_getElem?.mp hc
  rw [h.bound.cellOf_eq hi,hrow,Table.cellAt,List.getD_eq_getElem?_getD,cellsOf,List.getElem?_map,hi]
  rfl

/-- Two rows coincide on a unique group exactly when their records collide on it. -/
theorem coincide_eq (h : Tabular s d b identifier) {group : List String} (hgroup : group ∈ Records.uniqueGroups d)
    {x y : Row} {before : Record} (hx : x.cells = b.cellsOf before) (hy : y.cells = b.cellsOf record)
    (hbefore : before.Fits d) (hrecord : record.Fits d) :
    b.coincide group x y = Records.collide group before record := by
  have hcomparable := h.tabular.groups group hgroup
  rw [coincide,Records.collide,Bool.eq_iff_iff,List.all_eq_true,List.all_eq_true]
  refine forall₂_congr fun key hkey => ?_
  obtain ⟨p,hp,rfl,k,hk,hkind⟩ := hcomparable key hkey
  obtain ⟨k',hk',hxholds,_⟩ := hbefore.admitted p hp
  obtain ⟨k'',hk'',hyholds,_⟩ := hrecord.admitted p hp
  rw [hk] at hk' hk''
  cases hk'
  cases hk''
  rw [h.cellOf_eq hx hp,h.cellOf_eq hy hp,Column.cell_same hkind hxholds hyholds]

theorem coincide_identifier (h : Tabular s d b identifier) {x y : Row} {before : Record} {other : String}
    (hx : x.cells = b.cellsOf before) (hy : y.cells = b.cellsOf record)
    (hbefore : before.field identifier.key = .str other) (hrecord : record.field identifier.key = .str id) :
    b.coincide [identifier.key] x y = (other == id) := by
  rw [coincide,List.all_cons,List.all_nil,Bool.and_true,h.cellOf_eq hx h.mem,h.cellOf_eq hy h.mem,hbefore,hrecord]
  rfl

/-- The table has nothing against the row of a record with a new identifier exactly when the record collides
with none of those that the other rows keep. -/
theorem fault?_eq_none_iff (h : Tabular s d b identifier) (ht : b.Holds db t) {stored : List Record}
    {others : List Row} (hothers : List.Forall₂ (fun before x => x.cells = b.cellsOf before ∧ before.Fits d ∧
      ∃ other, before.field identifier.key = .str other ∧ other ≠ id) stored others)
    (number : Int) (hrecord : record.Fits d) (hid : record.field identifier.key = .str id) :
    t.fault? others ⟨number, b.cellsOf record⟩ = none ↔ Records.takenGroup? d stored record = none := by
  obtain ⟨hmissing,hrefusing⟩ := h.accepted ht.columns hrecord
  have hnumber : t.numberTaken others ⟨number, b.cellsOf record⟩ = false := by
    rw [Table.numberTaken,h.numberPosition?_eq_none ht.columns]
    rfl
  have hscalar (group : List String) (hgroup : group ∈ Records.uniqueGroups d) : isScalarGroup d group = true := by
    refine h.bound.isScalarGroup_iff.mpr fun key hkey => ?_
    obtain ⟨p,hp,hpkey,k,hk,_⟩ := h.tabular.groups group hgroup key hkey
    exact ⟨p,hp,Property.isRelationship_of_scalar (h.tabular.scalars p hp),hpkey⟩
  have hidentifier {x : Row} {before : Record} {other : String} (hx : x.cells = b.cellsOf before)
      (hbefore : before.field identifier.key = .str other) (hne : other ≠ id) {p : Property} (hp : p ∈ d.identifiers) :
      b.coincide [p.key] x ⟨number, b.cellsOf record⟩ = false := by
    obtain ⟨hp,hpid⟩ := List.mem_filter.mp hp
    rw [Descriptor.eq_of_identifier h.bound.identifiers hp h.mem hpid h.identifies,
      h.coincide_identifier hx rfl hbefore hid]
    exact beq_eq_false_iff_ne.mpr hne
  rw [TableBinding.fault?_eq_none_iff h.bound ht,Records.takenGroup?,List.find?_eq_none]
  constructor
  · rintro ⟨_,_,_,hfree⟩ group hgroup htaken
    obtain ⟨before,hmem,hcollide⟩ := List.any_eq_true.mp htaken
    obtain ⟨x,hx,hcells,hfits,_⟩ := exists_right_of_forall₂ hothers hmem
    rw [← h.coincide_eq (y := ⟨number, b.cellsOf record⟩) hgroup hcells rfl hfits hrecord] at hcollide
    have hduplicates := duplicates_iff.mpr ⟨group,hgroup,hscalar group hgroup,hcollide⟩
    rw [(hfree x hx).1] at hduplicates
    cases hduplicates
  · intro hfree
    refine ⟨hmissing,hrefusing,hnumber,fun x hx => ?_⟩
    obtain ⟨before,hmem,hcells,hfits,other,hother,hne⟩ := exists_left_of_forall₂ hothers hx
    refine ⟨?_,fun p hp _ _ => hidentifier hcells hother hne hp⟩
    rw [Bool.eq_false_iff]
    intro hduplicates
    obtain ⟨group,hgroup,_,hcoincide⟩ := duplicates_iff.mp hduplicates
    rw [h.coincide_eq hgroup hcells rfl hfits hrecord] at hcoincide
    exact hfree group hgroup (List.any_eq_true.mpr ⟨before,hmem,hcoincide⟩)

/-- What is against the row of a record is that a key is taken, which has columns of the table. -/
theorem fault_taken (h : Tabular s d b identifier) (ht : b.Holds db t) {others : List Row} {number : Int}
    (hrecord : record.Fits d) {fault : IntegrityFault}
    (hfault : t.fault? others ⟨number, b.cellsOf record⟩ = some fault) :
    ∃ names, fault = .unique b.schema.name names ∧ names ≠ [] ∧
      ∀ name ∈ names, ∃ entry ∈ b.columns, entry.2.name = name := by
  obtain ⟨hmissing,hrefusing⟩ := h.accepted ht.columns hrecord
  have hnumber : t.numberTaken others ⟨number, b.cellsOf record⟩ = false := by
    rw [Table.numberTaken,h.numberPosition?_eq_none ht.columns]
    rfl
  rw [Table.fault?,hmissing,hrefusing,hnumber] at hfault
  obtain ⟨key,hkey,rfl⟩ := Option.map_eq_some_iff.mp hfault
  obtain ⟨group,hlies,hkept⟩ := h.bound.group_of_key ht.columns ht.together (List.mem_of_find?_eq_some hkey)
  obtain ⟨entries,hentries,rfl,hnames⟩ := Bound.entries_of_liesAt ht.columns hlies
  refine ⟨t.columnNames key,by rw [ht.name],?_,?_⟩ <;> rw [hnames]
  · rw [ne_eq,List.map_eq_nil_iff]
    exact fun hnil => h.bound.kept_ne_nil hkept (by rw [hnil]; rfl)
  · exact List.forall_mem_map.mpr fun entry hentry => ⟨entry,hentries entry hentry,rfl⟩

/-- A row is judged as its record is: both are free of collisions, or a key of both is taken. -/
theorem judged (h : Tabular s d b identifier) (ht : b.Holds db t) {stored : List Record} {others : List Row}
    (hothers : List.Forall₂ (fun before x => x.cells = b.cellsOf before ∧ before.Fits d ∧
      ∃ other, before.field identifier.key = .str other ∧ other ≠ id) stored others)
    (number : Int) (hrecord : record.Fits d) (hid : record.field identifier.key = .str id) :
    (Records.takenGroup? d stored record = none ∧ t.fault? others ⟨number, b.cellsOf record⟩ = none) ∨
      ∃ group names, Records.takenGroup? d stored record = some group ∧
        t.fault? others ⟨number, b.cellsOf record⟩ = some (.unique b.schema.name names) ∧ names ≠ [] ∧
        ∀ name ∈ names, ∃ entry ∈ b.columns, entry.2.name = name := by
  have hfault := h.fault?_eq_none_iff ht hothers number hrecord hid
  cases htaken : Records.takenGroup? d stored record with
  | none => exact .inl ⟨rfl,hfault.mpr htaken⟩
  | some group =>
    obtain ⟨fault,hsome⟩ : ∃ fault, t.fault? others ⟨number, b.cellsOf record⟩ = some fault := by
      rw [← Option.ne_none_iff_exists',ne_eq,hfault,htaken]
      exact Option.some_ne_none group
    obtain ⟨names,rfl,hnames,hcolumns⟩ := h.fault_taken ht hrecord hsome
    exact .inr ⟨group,names,rfl,hsome,hnames,hcolumns⟩

/-- A row is found by the identifier of the record that it keeps. -/
theorem meets_identifier (h : Tabular s d b identifier) (ht : b.Holds db t) {row : Row} {primary other : String}
    (hprimary : b.primaryName = .ok primary) (hrow : row.cells = b.cellsOf record)
    (hrecord : record.field identifier.key = .str other) : t.meets row ⟨primary, .text id⟩ = (other == id) := by
  obtain ⟨i,c,hi,htype,_,hname⟩ := h.exists_primary
  rw [hprimary] at hname
  cases hname
  have hcell := h.cellOf_eq hrow h.mem
  rw [h.bound.cellOf_eq hi,hrecord] at hcell
  rw [Table.meets,h.bound.position? ht.columns hi]
  dsimp only
  rw [(Bound.tableColumn ht.columns).mpr ⟨_,_,hi,rfl⟩]
  dsimp only
  rw [hcell,Column.toTableColumn,htype]
  rfl

/-- A record as it is read back. -/
theorem recordOf_eq (h : Tabular s d b identifier) (ht : b.Holds db t) {row : Row}
    (hrow : row.cells = b.cellsOf record) (hrecord : record.Fits d) :
    recordOf t row b.columns = .ok record.settled := by
  have hentries (entries : List (String × Column)) (hmem : ∀ entry ∈ entries, entry ∈ b.columns) :
      recordOf t row entries = .ok (entries.map fun entry => (entry.1, (record.field entry.1).settled)) := by
    induction entries with
    | nil => rfl
    | cons entry rest ih =>
      have hentry := hmem entry List.mem_cons_self
      obtain ⟨i,hi⟩ := List.mem_iff_getElem?.mp hentry
      obtain ⟨p,hp,hkey,_⟩ := exists_left_of_forall₂ h.columns hentry
      obtain ⟨k,htype,hholds,_⟩ := h.holds_entry hrecord hentry
      have hcell : Table.cellAt row.cells i = (record.field entry.1).cell := by
        rw [← h.bound.cellOf_eq hi,hkey,h.cellOf_eq hrow hp]
      simp only [recordOf,h.bound.position? ht.columns hi,hcell,Column.decode_cell htype hholds,
        ih fun e he => hmem e (List.mem_cons_of_mem _ he)]
      rfl
  have hkeys : b.columns.map (·.1) = record.map (·.1) := by
    rw [hrecord.keys]
    exact (map_eq_of_forall₂ h.columns fun p entry hentry => hentry.1.symm).symm
  have hfields := Record.map_field (by rw [hrecord.keys]; exact h.bound.keys : (record.map (·.1)).Nodup)
  rw [hentries b.columns fun _ he => he]
  calc Except.ok (b.columns.map fun entry => (entry.1, (record.field entry.1).settled))
      = .ok ((b.columns.map (·.1)).map fun key => (key, (record.field key).settled)) := by
        rw [List.map_map]
        rfl
    _ = .ok ((record.map fun entry => (entry.1, record.field entry.1)).map fun (key, v) => (key, v.settled)) := by
        rw [hkeys,List.map_map,List.map_map]
        rfl
    _ = .ok record.settled := by
        rw [hfields]
        rfl

end Tabular

end TableBinding

end Trischema
