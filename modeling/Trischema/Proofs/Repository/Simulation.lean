import Trischema.Proofs.Repository.Mirroring
import Trischema.Repository.Records

/-!
Records in memory and rows of a table that keep the same instances. Each change of the one store matches the
same change of the other, and reads from the table give the records as they are read back.
-/

namespace Trischema

namespace Records

variable {records : Records} {id : String}

/-- Records as they are read back from a table. -/
def settled (records : Records) : Records := records.map fun (id, record) => (id, record.settled)

theorem lookup_settled (records : Records) (id : String) :
    records.settled.lookup id = (records.lookup id).map Record.settled := by
  induction records with
  | nil => rfl
  | cons entry rest ih =>
    have ih : List.lookup id (rest.map fun (id, record) => (id, record.settled)) = _ := ih
    rw [settled,List.map_cons,List.lookup_cons,List.lookup_cons,ih]
    cases id == entry.1 <;> rfl

theorem contains_iff : records.contains id = true ↔ ∃ entry ∈ records, entry.1 = id := by
  rw [contains,List.lookup_isSome_iff]
  exact exists_congr fun entry => and_congr_right fun _ => by rw [beq_iff_eq,eq_comm]

theorem ne_of_not_contains (h : records.contains id = false) : ∀ entry ∈ records, entry.1 ≠ id := by
  intro entry hentry heq
  rw [contains_iff.mpr ⟨entry,hentry,heq⟩] at h
  cases h

/-- A record that is there stands between records of other identifiers. -/
theorem exists_split (hids : (records.map (·.1)).Nodup) (h : records.contains id = true) :
    ∃ before record after, records = before ++ (id, record) :: after ∧ ∀ entry ∈ before ++ after, entry.1 ≠ id := by
  obtain ⟨⟨_,record⟩,hentry,rfl⟩ := contains_iff.mp h
  obtain ⟨before,after,rfl⟩ := List.append_of_mem hentry
  refine ⟨before,record,after,rfl,fun entry hentry heq => ?_⟩
  rw [List.map_append,List.map_cons] at hids
  have hnotin := (List.nodup_cons.mp (List.nodup_middle.mp hids)).1
  rw [← List.map_append] at hnotin
  exact hnotin (List.mem_map.mpr ⟨entry,hentry,heq⟩)

theorem setNamed_split {before after : Records} {old record : Record} (h : ∀ entry ∈ before, entry.1 ≠ id) :
    setNamed (before ++ (id, old) :: after) id record = before ++ (id, record) :: after := by
  induction before with
  | nil => simp [setNamed]
  | cons first rest ih =>
    have hfirst := h first List.mem_cons_self
    rw [List.cons_append,setNamed,if_neg hfirst,ih fun entry hentry => h entry (List.mem_cons_of_mem _ hentry)]
    rfl

end Records

namespace TableBinding

/-- Whether a row keeps a record under its identifier. -/
structure Mirrors (b : TableBinding) (d : Descriptor) (identifier : Property) (entry : String × Record)
    (row : Row) : Prop where
  cells : row.cells = b.cellsOf entry.2
  fits : entry.2.Fits d
  id : entry.2.field identifier.key = .str entry.1

/-- Whether the rows of a table keep the records in memory, in their order. -/
structure Simulates (b : TableBinding) (d : Descriptor) (identifier : Property) (records : Records) (db : Database)
    (t : Table) : Prop where
  holds : b.Holds db t
  ids : (records.map (·.1)).Nodup
  rows : List.Forall₂ (b.Mirrors d identifier) records t.rows

/-- Changes of both stores that match: they store the same, or refuse for the same reason. A taken key is told
by the properties and values of the record in one store, and by the columns of the table in the other. -/
inductive Matches (b : TableBinding) (d : Descriptor) (identifier : Property) :
    Except Error Records → Except Error Database → Prop
  | stored {records : Records} {db : Database} {t : Table} (h : b.Simulates d identifier records db t) :
    Matches b d identifier (.ok records) (.ok db)
  | refused (e : Error) : Matches b d identifier (.error e) (.error e)
  | taken {group : List (String × Value)} {names : List String} (hnames : names ≠ [])
      (hcolumns : ∀ name ∈ names, ∃ entry ∈ b.columns, entry.2.name = name) :
    Matches b d identifier (.error (.collision (.values d.name group)))
      (.error (b.report d.name (.integrity (.unique b.schema.name names))))

variable {s : Settings} {d : Descriptor} {b : TableBinding} {identifier : Property} {records : Records}
  {db : Database} {t : Table} {record : Record} {id primary : String}

theorem meets_mirrored (h : Tabular s d b identifier) (ht : b.Holds db t) (hprimary : b.primaryName = .ok primary)
    {entry : String × Record} {row : Row} (hrow : b.Mirrors d identifier entry row) :
    [(⟨primary, .text id⟩ : Table.Condition)].all (t.meets row) = (entry.1 == id) := by
  rw [List.all_cons,List.all_nil,Bool.and_true,h.meets_identifier ht hprimary hrow.cells hrow.id]

/-- No row is found by an identifier that is not there. -/
theorem Simulates.absent (h : Tabular s d b identifier) (hsim : b.Simulates d identifier records db t)
    (hprimary : b.primaryName = .ok primary) (hnew : records.contains id = false) :
    t.select [⟨primary, .text id⟩] = [] := by
  refine List.filter_eq_nil_iff.mpr fun row hrow => ?_
  obtain ⟨entry,hentry,hmirrors⟩ := exists_left_of_forall₂ hsim.rows hrow
  rw [meets_mirrored h hsim.holds hprimary hmirrors,beq_iff_eq]
  exact Records.ne_of_not_contains hnew entry hentry

/-- Where the record and the row of an identifier are among the others. -/
structure Located (b : TableBinding) (d : Descriptor) (identifier : Property) (records : Records) (t : Table)
    (id : String) (before after : Records) (old : Record) (before' after' : List Row) (row : Row) : Prop where
  records : records = before ++ (id, old) :: after
  rows : t.rows = before' ++ row :: after'
  others : ∀ entry ∈ before ++ after, entry.1 ≠ id
  before : List.Forall₂ (b.Mirrors d identifier) before before'
  mirrors : b.Mirrors d identifier (id, old) row
  after : List.Forall₂ (b.Mirrors d identifier) after after'

theorem Simulates.locate (hsim : b.Simulates d identifier records db t) (hthere : records.contains id = true) :
    ∃ before after old before' after' row,
      b.Located d identifier records t id before after old before' after' row := by
  obtain ⟨before,old,after,hrecords,hothers⟩ := Records.exists_split hsim.ids hthere
  have hrows := hsim.rows
  rw [hrecords] at hrows
  obtain ⟨before',row,after',hsplit,hbefore,hrow,hafter⟩ := exists_middle_of_forall₂ hrows
  exact ⟨before,after,old,before',after',row,⟨hrecords,hsplit,hothers,hbefore,hrow,hafter⟩⟩

namespace Located

variable {before after : Records} {old : Record} {before' after' : List Row} {row : Row}

/-- The row is the only one that is found by the identifier. -/
theorem select (hat : b.Located d identifier records t id before after old before' after' row)
    (h : Tabular s d b identifier) (ht : b.Holds db t) (hprimary : b.primaryName = .ok primary) :
    t.select [⟨primary, .text id⟩] = [row] := by
  rw [Table.select,hat.rows]
  refine filter_eq_middle ?_ fun x hx => ?_
  · rw [meets_mirrored h ht hprimary hat.mirrors]
    exact beq_self_eq_true id
  · obtain ⟨entry,hentry,hx⟩ := exists_left_of_forall₂ (List.rel_append hat.before hat.after) hx
    rw [meets_mirrored h ht hprimary hx]
    exact beq_eq_false_iff_ne.mpr (hat.others entry hentry)

theorem around (hat : b.Located d identifier records t id before after old before' after' row) (ht : t.Sound) :
    (∀ r ∈ before', r.number < row.number) ∧ ∀ r ∈ after', row.number < r.number := by
  have hincreasing := ht.increasing
  rw [hat.rows,List.pairwise_append,List.pairwise_cons] at hincreasing
  exact ⟨fun r hr => hincreasing.2.2 r hr row List.mem_cons_self,hincreasing.2.1.1⟩

theorem apart (hat : b.Located d identifier records t id before after old before' after' row) (ht : t.Sound) :
    ∀ r ∈ before' ++ after', r.number ≠ row.number := by
  obtain ⟨hless,hgreater⟩ := hat.around ht
  exact List.forall_mem_append.mpr
    ⟨fun r hr => Int.ne_of_lt (hless r hr),fun r hr => (Int.ne_of_lt (hgreater r hr)).symm⟩

theorem otherRows (hat : b.Located d identifier records t id before after old before' after' row) (ht : t.Sound) :
    t.otherRows row = before' ++ after' := by
  rw [Table.otherRows,hat.rows]
  exact filter_eq_rest (bne_self_eq_false _) fun r hr => bne_iff_ne.mpr (hat.apart ht r hr)

theorem otherRecords (hat : b.Located d identifier records t id before after old before' after' row) :
    (records.filter fun (k, _) => k != id) = before ++ after := by
  rw [hat.records]
  exact filter_eq_rest (bne_self_eq_false _) fun entry hentry => bne_iff_ne.mpr (hat.others entry hentry)

end Located

/-- The records that rows of other identifiers keep. -/
theorem others_of_mirrors {entries : Records} {rows : List Row}
    (hrows : List.Forall₂ (b.Mirrors d identifier) entries rows) (hne : ∀ entry ∈ entries, entry.1 ≠ id) :
    List.Forall₂ (fun before x => x.cells = b.cellsOf before ∧ before.Fits d ∧
      ∃ other, before.field identifier.key = .str other ∧ other ≠ id) (entries.map (·.2)) rows := by
  rw [List.forall₂_map_left_iff]
  refine ((List.forall₂_and_left _ _).mpr ⟨hne,hrows⟩).imp fun entry row ⟨hne,hrow⟩ => ?_
  exact ⟨hrow.cells,hrow.fits,entry.1,hrow.id,hne⟩

/-- A new instance is stored in both, or refused by both. -/
theorem Simulates.insert (h : Tabular s d b identifier) (hsim : b.Simulates d identifier records db t)
    (hrecord : record.Fits d) (hid : record.field identifier.key = .str id) :
    b.Matches d identifier (records.insert d id record) (b.insert d.name id record db) := by
  obtain ⟨i,c,hi,_,_,hprimary⟩ := h.exists_primary
  rw [insert_eq hsim.holds.found,hprimary,Records.insert]
  change b.Matches d identifier _ (if _ then _ else _)
  cases hthere : records.contains id with
  | true =>
    obtain ⟨_,_,_,_,_,row,hat⟩ := hsim.locate hthere
    rw [hat.select h hsim.holds hprimary]
    exact .refused _
  | false =>
    have hne := Records.ne_of_not_contains hthere
    rw [hsim.absent h hprimary hthere,h.named_eq hsim.holds.columns hrecord]
    change b.Matches d identifier (Records.checkUnique d _ record >>= _) (b.settled d.name db (t.insert _))
    rw [Table.insert_eq,h.newRow_eq hsim.holds.columns hrecord,Records.checkUnique]
    change b.Matches d identifier _ (b.settled d.name db (t.accept t.rows _))
    rw [Table.accept]
    rcases h.judged hsim.holds (others_of_mirrors hsim.rows hne) t.nextNumber hrecord hid with
      ⟨hfree,hfault⟩ | ⟨group,names,htaken,hfault,hnames,hcolumns⟩
    · have hsound := Table.place_sound (t := t) hsim.holds.sound hfault fun r hr =>
        Int.ne_of_lt (Table.lt_nextNumber hr)
      have hplace : Table.place t.rows ⟨t.nextNumber, b.cellsOf record⟩ = t.rows ++ [⟨t.nextNumber, b.cellsOf record⟩] :=
        Table.place_last fun r hr => Table.lt_nextNumber hr
      rw [hfree,hfault]
      refine .stored ⟨hsim.holds.setRows hsound,?_,?_⟩
      · rw [List.map_append,List.nodup_append]
        refine ⟨hsim.ids,List.nodup_singleton id,?_⟩
        intro other hother new hnew heq
        obtain ⟨entry,hentry,rfl⟩ := List.mem_map.mp hother
        exact hne entry hentry (heq.trans (List.mem_singleton.mp hnew))
      · change List.Forall₂ _ _ (Table.place t.rows _)
        rw [hplace]
        exact List.rel_append hsim.rows (.cons ⟨rfl,hrecord,hid⟩ .nil)
    · rw [hfault,htaken]
      exact .taken hnames hcolumns

/-- An instance that is there is replaced in both, or refused by both. -/
theorem Simulates.update (h : Tabular s d b identifier) (hsim : b.Simulates d identifier records db t)
    (hrecord : record.Fits d) (hid : record.field identifier.key = .str id) (hthere : records.contains id = true) :
    b.Matches d identifier (records.update d id record) (b.update d.name id record db) := by
  obtain ⟨i,c,hi,_,_,hprimary⟩ := h.exists_primary
  obtain ⟨before,after,old,before',after',row,hat⟩ := hsim.locate hthere
  have hapart := hat.apart hsim.holds.sound
  obtain ⟨hless,hgreater⟩ := hat.around hsim.holds.sound
  rw [update_eq hsim.holds.found,hprimary,h.named_eq hsim.holds.columns hrecord]
  change b.Matches d identifier _ (if (t.select [⟨c.name, .text id⟩]).isEmpty then _
    else b.settled _ _ (t.replaceAll _ (t.select [⟨c.name, .text id⟩])))
  rw [hat.select h hsim.holds hprimary]
  change b.Matches d identifier (Records.checkUnique d _ record >>= _) (b.settled d.name db (t.replaceAll _ [row]))
  rw [Table.replaceAll,Table.replace_eq,h.changedRow_eq hsim.holds.columns hrecord hat.mirrors.cells,
    Records.checkUnique,Records.others,hat.otherRecords]
  change b.Matches d identifier _ (b.settled d.name db (t.accept (t.otherRows row) _ >>= _))
  rw [Table.accept,hat.otherRows hsim.holds.sound]
  rcases h.judged hsim.holds (others_of_mirrors (List.rel_append hat.before hat.after) hat.others) row.number hrecord hid with
    ⟨hfree,hfault⟩ | ⟨group,names,htaken,hfault,hnames,hcolumns⟩
  · have hkept : Table.Sound { t with rows := before' ++ after' } := by
      refine hsim.holds.sound.sublist ?_
      rw [hat.rows]
      exact List.Sublist.append_left (List.sublist_cons_self row after') before'
    have hsound := Table.place_sound hkept hfault hapart
    have hplace : Table.place (before' ++ after') ⟨row.number, b.cellsOf record⟩ =
        before' ++ ⟨row.number, b.cellsOf record⟩ :: after' := Table.place_between hless hgreater
    rw [hplace] at hsound
    rw [hfree,hfault,hplace,hat.records]
    change b.Matches d identifier (.ok (setNamed _ id record)) _
    rw [Records.setNamed_split fun entry hentry => hat.others entry (List.mem_append_left _ hentry)]
    refine .stored ⟨hsim.holds.setRows hsound,?_,?_⟩
    · have hids := hsim.ids
      rw [hat.records,List.map_append,List.map_cons] at hids
      rwa [List.map_append,List.map_cons]
    · exact List.rel_append hat.before (.cons ⟨rfl,hrecord,hid⟩ hat.after)
  · rw [hfault,htaken]
    exact .taken hnames hcolumns

/-- Replacing an instance that is not there is refused by the table. -/
theorem Simulates.update_absent (h : Tabular s d b identifier) (hsim : b.Simulates d identifier records db t)
    (hrecord : record.Fits d) (hnew : records.contains id = false) :
    b.update d.name id record db = .error (.notFound d.name id .update) := by
  obtain ⟨i,c,hi,_,_,hprimary⟩ := h.exists_primary
  rw [update_eq hsim.holds.found,hprimary,h.named_eq hsim.holds.columns hrecord]
  change (if (t.select [⟨c.name, .text id⟩]).isEmpty then _ else _) = _
  rw [hsim.absent h hprimary hnew]
  rfl

/-- An instance is removed from both, or is in neither. -/
theorem Simulates.delete (h : Tabular s d b identifier) (hsim : b.Simulates d identifier records db t) :
    b.Matches d identifier (records.delete d id) (b.delete d.name id db) := by
  obtain ⟨i,c,hi,_,_,hprimary⟩ := h.exists_primary
  rw [delete_eq hsim.holds.found,hprimary,Records.delete]
  change b.Matches d identifier _ (if (t.select [⟨c.name, .text id⟩]).isEmpty then _
    else .ok (db.setTable (t.remove (t.select [⟨c.name, .text id⟩]))))
  cases hthere : records.contains id with
  | false =>
    rw [hsim.absent h hprimary hthere]
    exact .refused _
  | true =>
    obtain ⟨before,after,old,before',after',row,hat⟩ := hsim.locate hthere
    have hremove : t.remove [row] = { t with rows := before' ++ after' } := by
      rw [← hat.otherRows hsim.holds.sound,Table.remove,Table.otherRows]
      refine congrArg (fun rows => { t with rows }) (List.filter_congr fun r _ => ?_)
      rw [List.any_cons,List.any_nil,Bool.or_false,bne,Bool.beq_comm]
    have hsound := Table.remove_sound hsim.holds.sound [row]
    rw [hremove] at hsound
    rw [hat.select h hsim.holds hprimary,hremove,hat.otherRecords]
    refine .stored ⟨hsim.holds.setRows hsound,?_,List.rel_append hat.before hat.after⟩
    rw [← hat.otherRecords]
    exact (List.filter_sublist.map _).nodup hsim.ids

/-- The records of rows are those that they keep, as they are read back. -/
theorem recordsOf_mirrored (h : Tabular s d b identifier) (ht : b.Holds db t) {entries : Records} {rows : List Row}
    (hrows : List.Forall₂ (b.Mirrors d identifier) entries rows) :
    b.recordsOf t rows = .ok (entries.map fun entry => entry.2.settled) := by
  refine mapM_eq_ok.mpr (List.forall₂_map_right_iff.mpr (hrows.imp fun entry row hrow => ?_).flip)
  exact h.recordOf_eq ht hrow.cells hrow.fits

/-- All instances are read from the table as from memory, as they are read back. -/
theorem Simulates.reads_all (h : Tabular s d b identifier) (hsim : b.Simulates d identifier records db t) (r : Repository) :
    r.allRows b db = r.allRecords records.settled := by
  have hsearch : b.all db = .ok (records.settled.map (·.2)) := by
    have hselect : t.select [] = t.rows := List.filter_eq_self.mpr fun _ _ => rfl
    rw [all,search,table_found hsim.holds.found]
    change b.recordsOf t (t.select []) = _
    rw [hselect,recordsOf_mirrored h hsim.holds hsim.rows,Records.settled,List.map_map]
    rfl
  rw [Repository.allRows,hsearch]
  rfl

/-- An instance is found in the table as in memory, as it is read back. -/
theorem Simulates.reads_one (h : Tabular s d b identifier) (hsim : b.Simulates d identifier records db t) (r : Repository)
    (v : Value) : r.findRow b db v = r.findRecord records.settled v := by
  obtain ⟨i,c,hi,_,_,hprimary⟩ := h.exists_primary
  have hsearch : b.search db [(c.name, .str v.display)] = b.recordsOf t (t.select [⟨c.name, .text v.display⟩]) := by
    rw [search,table_found hsim.holds.found]
    rfl
  rw [Repository.findRow,Repository.findRecord,hprimary]
  refine bind_congr fun _ => ?_
  rw [ok_bind,hsearch]
  cases hthere : records.contains v.display with
  | false =>
    have hlookup := Option.not_isSome_iff_eq_none.mp (Bool.eq_false_iff.mp hthere)
    rw [hsim.absent h hprimary hthere,Records.lookup_settled,hlookup]
    rfl
  | true =>
    obtain ⟨before,after,old,before',after',row,hat⟩ := hsim.locate hthere
    have hlookup := lookup_of_nodup hsim.ids (hat.records ▸ List.mem_append_right before List.mem_cons_self)
    rw [hat.select h hsim.holds hprimary,recordsOf_mirrored h hsim.holds (.cons hat.mirrors .nil),
      Records.lookup_settled,hlookup]
    rfl

end TableBinding

end Trischema
