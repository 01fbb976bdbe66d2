import Trischema.Proofs.Repository.Returning

/-!
Which writes leave a table that can be read. Every value that a table accepts is read back, but for those in columns of
moments and dates whose text is no moment or no date; one row with such a value keeps all rows from being read together.
-/

namespace Trischema

/-- Whether a value is absent where texts are kept, or can be read from the text that is kept of it. -/
def Value.keptAs (reads : String → Bool) : Value → Bool
  | .null => true
  | .float x => x.isNan || reads (Cell.realText x)
  | .moment m => reads m.iso
  | .date d => reads d.iso
  | v =>
    match v.text?, v.number? with
    | some s, _ => reads s
    | none, some (.int n) => reads (toString n)
    | none, _ => false

/-- Whether a column reads what it keeps of a value. -/
def ColumnType.reads : ColumnType → Value → Bool
  | moment, v => v.keptAs fun s => (Moment.read s).isOk
  | date, v => v.keptAs fun s => (Date.read s).isOk
  | _, _ => true

/-- Values of the kind of a column are read. -/
theorem ColumnType.reads_of_takes {type : ColumnType} {v : Value} (h : type.Takes v) : type.reads v = true := by
  by_cases hnull : v = .null
  · rw [hnull]
    cases type <;> rfl
  · cases type with
    | moment =>
      obtain ⟨m,rfl,hvalid⟩ : ∃ m, v = .moment m ∧ m.IsValid := by cases v <;> first | exact h | exact absurd rfl hnull
      change (Moment.read m.iso).isOk = true
      rw [m.read_iso hvalid]
      rfl
    | date =>
      obtain ⟨d,rfl,hvalid⟩ : ∃ d, v = .date d ∧ d.IsValid := by cases v <;> first | exact h | exact absurd rfl hnull
      change (Date.read d.iso).isOk = true
      rw [hvalid.read_iso]
      rfl
    | _ => rfl

namespace Column

variable {c : Column} {v bound : Value} {cell : Cell}

/-- Whether a cell can be read by a column. -/
def Decodes (c : Column) (x : Cell) : Prop := ∃ w, c.decode x.toValue = .ok w

theorem decodes_null (c : Column) : c.Decodes .null := ⟨.null,rfl⟩

/-- A column that neither reads documents nor texts takes its cells as they are. -/
theorem decodes_plain (hserialized : c.type.isSerialized = false) (hmoment : c.type ≠ .moment) (hdate : c.type ≠ .date)
    (x : Cell) : c.Decodes x := by
  have hdecode (w : Value) : ∃ w', c.decode w = .ok w' := by
    cases hnull : w.isNull with
    | true => exact ⟨.null,by rw [decode,if_pos hnull]⟩
    | false =>
      cases htype : c.type <;> simp [decode,hnull,htype]
      all_goals first
        | exact absurd htype hmoment
        | exact absurd htype hdate
        | (rw [htype] at hserialized; cases hserialized)
  exact hdecode x.toValue

/-- A column of texts that reads them, reads what it keeps of a value exactly when the text of the value can be read. -/
theorem decodes_text {α : Type} {read : String → Except CalendarFault α} {make : α → Value}
    (haffinity : c.type.affinity = .text)
    (hdecode : ∀ w : Value, w.isNull = false → c.decode w = decodeText (fun s => (read s).map make) w)
    (hcell : Cell.ofValue v.bare = .ok cell) :
    c.Decodes (cell.stored c.type.affinity) ↔ v.keptAs (fun s => (read s).isOk) = true := by
  have htext (s : String) : c.Decodes (.text s) ↔ (read s).isOk = true := by
    rw [Decodes,Cell.toValue,hdecode _ rfl,decodeText]
    dsimp only [Value.text?]
    cases read s <;> simp [Except.map,Except.isOk,Except.toBool]
  rw [haffinity]
  have hint {n : Int} (hn : v.number? = some (.int n)) (hbare : v.bare = v)
      (hkept : v.keptAs (fun s => (read s).isOk) = (read (toString n)).isOk) :
      c.Decodes (cell.stored .text) ↔ v.keptAs (fun s => (read s).isOk) = true := by
    rw [hbare] at hcell
    rw [ofValue_int hn hcell,hkept]
    exact htext _
  cases v with
  | null =>
    cases hcell
    exact iff_of_true (decodes_null c) rfl
  | bool b => exact hint rfl rfl rfl
  | int n => exact hint rfl rfl rfl
  | float x =>
    rw [ofValue_float hcell]
    cases hnan : x.isNan with
    | true => exact iff_of_true (decodes_null c) (by rw [Value.keptAs,hnan]; rfl)
    | false =>
      rw [Value.keptAs,hnan]
      exact htext _
  | str s =>
    cases hcell
    exact htext s
  | bytes bs =>
    cases hcell
    refine iff_of_false ?_ Bool.false_ne_true
    rintro ⟨w,hw⟩
    rw [hdecode _ rfl] at hw
    cases hw
  | date d =>
    cases hcell
    exact htext _
  | moment m =>
    cases hcell
    exact htext _
  | member m =>
    obtain ⟨cls,mixin,name,value⟩ := m
    cases mixin with
    | plain => cases hcell
    | integer =>
      cases value with
      | int n => exact hint rfl rfl rfl
      | _ => cases hcell
    | text =>
      cases value with
      | str s =>
        cases hcell
        exact htext s
      | _ => cases hcell
  | _ => cases hcell

/-- A column reads what it keeps of a value that was bound exactly when the value is one that it reads. -/
theorem decodes_iff (hsound : v.IsSound) (hbound : c.encode v = .ok bound) (hcell : Cell.ofValue bound = .ok cell) :
    c.Decodes (cell.stored c.type.affinity) ↔ c.type.reads v = true := by
  by_cases hserialized : c.type.isSerialized = true
  · have hreads : c.type.reads v = true := by
      cases htype : c.type <;> first | rfl | (rw [htype] at hserialized; cases hserialized)
    refine iff_of_true ?_ hreads
    by_cases hnull : v = .null
    · rw [hnull] at hbound
      obtain ⟨w,hw,_⟩ := gives_null hbound hcell
      exact ⟨w,hw⟩
    · obtain ⟨w,hw,_⟩ := gives_document hserialized hnull hsound hbound hcell
      exact ⟨w,hw⟩
  · rw [Bool.not_eq_true] at hserialized
    have hbare (htruth : c.type ≠ .truth) : bound = v.bare :=
      Except.ok.inj (hbound.symm.trans (encode_bare hserialized htruth v))
    by_cases hmoment : c.type = .moment
    · obtain rfl := hbare (by rw [hmoment]; exact ColumnType.noConfusion)
      have hdecode (w : Value) (hw : w.isNull = false) :
          c.decode w = decodeText (fun s => (Moment.read s).map .moment) w := by
        simp only [decode,hw,hmoment,Bool.false_eq_true,if_false]
      rw [decodes_text (by rw [hmoment]; rfl) hdecode hcell,hmoment]
      rfl
    · by_cases hdate : c.type = .date
      · obtain rfl := hbare (by rw [hdate]; exact ColumnType.noConfusion)
        have hdecode (w : Value) (hw : w.isNull = false) :
            c.decode w = decodeText (fun s => (Date.read s).map .date) w := by
          simp only [decode,hw,hdate,Bool.false_eq_true,if_false]
        rw [decodes_text (by rw [hdate]; rfl) hdecode hcell,hdate]
        rfl
      · refine iff_of_true (decodes_plain hserialized hmoment hdate _) ?_
        cases htype : c.type <;> first | rfl | exact absurd htype hmoment | exact absurd htype hdate

end Column

namespace TableBinding

open Relational Write Adapter

/-- Whether the columns read what they keep of a record. -/
def reads (b : TableBinding) (record : Record) : Bool := b.columns.all fun entry => entry.2.type.reads (record.field entry.1)

/-- Whether the values of a record are as values are. -/
def Sound (b : TableBinding) (record : Record) : Prop := ∀ entry ∈ b.columns, (record.field entry.1).IsSound

variable {s : Settings} {d : Descriptor} {b : TableBinding} {db db' : Database} {t : Table} {record : Record}
  {row : Row} {r : Repository} {opened : Repository × Database} {entry : String × Column} {x : Cell}

theorem Fills.decodes_iff (hsound : (record.field entry.1).IsSound) (hfills : Fills record entry x) :
    entry.2.Decodes x ↔ entry.2.type.reads (record.field entry.1) = true := by
  obtain ⟨cell,⟨bound,hbound,hcell⟩,hx⟩ := hfills
  have hiff := Column.decodes_iff hsound hbound hcell
  rcases hx with rfl | ⟨hnull,hnumbers,n,rfl⟩
  · exact hiff
  · rw [hnull] at hiff
    -- only columns of whole numbers and truth values number rows, and these take all cells as they are
    have haffinity := beq_iff_eq.mp (Bool.and_eq_true_iff.mp hnumbers).2
    change entry.2.type.affinity = .integer at haffinity
    refine iff_of_true (Column.decodes_plain ?_ ?_ ?_ _) (hiff.mp (Column.decodes_null _))
    · cases htype : entry.2.type <;> first | rfl | (rw [htype] at haffinity; cases haffinity)
    all_goals
      intro htype
      rw [htype] at haffinity
      cases haffinity

/-- A row can be read exactly when the columns read the record that it keeps. -/
theorem Stores.recordOf_iff (h : Bound s d b) (ht : t.columns = b.definition.empty.columns) (hsound : b.Sound record)
    (hstores : b.Stores record row) : (∃ found, recordOf t row b.columns = .ok found) ↔ b.reads record = true := by
  have hcell : ∀ entry ∈ b.columns, ∃ i x, t.position? entry.2.name = some i ∧ Table.cellAt row.cells i = x ∧
      Fills record entry x := by
    intro entry hentry
    obtain ⟨i,hi,hfills,_⟩ := hstores.at h ht hentry
    exact ⟨i,_,hi,rfl,hfills⟩
  rw [reads,List.all_eq_true]
  constructor
  · rintro ⟨found,hfound⟩ entry hentry
    obtain ⟨i,x,hi,hx,hfills⟩ := hcell entry hentry
    obtain ⟨f,_,j,hj,_,hf⟩ := exists_right_of_forall₂ (recordOf_eq_ok.mp hfound) hentry
    cases hi.symm.trans hj
    rw [hx] at hf
    exact (hfills.decodes_iff (hsound entry hentry)).mp ⟨f.2,hf⟩
  · intro hreads
    have hfound : ∀ entry ∈ b.columns, ∃ f : String × Value, ∃ i, t.position? entry.2.name = some i ∧ f.1 = entry.1 ∧
        entry.2.decode (Table.cellAt row.cells i).toValue = .ok f.2 := by
      intro entry hentry
      obtain ⟨i,x,hi,hx,hfills⟩ := hcell entry hentry
      obtain ⟨w,hw⟩ := (hfills.decodes_iff (hsound entry hentry)).mpr (hreads entry hentry)
      exact ⟨(entry.1,w),i,hi,rfl,by rw [hx]; exact hw⟩
    obtain ⟨found,hall⟩ := forall₂_of_forall hfound
    exact ⟨found,recordOf_eq_ok.mpr hall⟩

theorem recordsOf_iff {rows : List Row} :
    (∃ found, b.recordsOf t rows = .ok found) ↔ ∀ row ∈ rows, ∃ found, recordOf t row b.columns = .ok found := by
  constructor
  · rintro ⟨found,hfound⟩ row hrow
    obtain ⟨f,_,hf⟩ := exists_right_of_forall₂ (mapM_eq_ok.mp hfound) hrow
    exact ⟨f,hf⟩
  · intro hall
    obtain ⟨found,hfound⟩ := forall₂_of_forall hall
    exact ⟨found,mapM_eq_ok.mpr hfound⟩

theorem Takes.reads (htakes : b.Takes record) : b.reads record = true :=
  List.all_eq_true.mpr fun entry hentry => ColumnType.reads_of_takes (htakes.values entry hentry)

/-- Whatever is written to a created table, each of its rows keeps a record that one of the calls prepared, and reading
them all succeeds exactly when the columns read each of these records. Values of the kinds of the columns are always
read; a single row with another text in a column of moments or dates is in the way of all. -/
theorem readable_iff_written {registry : Registry} {c : Class Value} {schema : Relational} {db₀ : Database}
    {calls : List Call} {reached : Repository × Database} (hd : registry.descriptor (.cls c) = .ok d)
    (hschema : (Relational.compile registry (.ok s) (.cls c) none 0).result = .ok schema)
    (hb : ofSchema d schema = .ok b) (hcreate : b.definition.create db₀ = .ok db)
    (hnew : db₀.table? b.definition.name = none)
    (hsound : ∀ call ∈ calls, ∀ record, Prepares r call record → b.Sound record)
    (hreached : reached = Call.run (·.onRows b) (r, db) calls) :
    ∃ t records, reached.2.table? b.schema.name = some t ∧ List.Forall₂ b.Stores records t.rows ∧
      (∀ record ∈ records, ∃ call ∈ calls, Prepares r call record) ∧
      ((∃ found, b.all reached.2 = .ok found) ↔ ∀ record ∈ records, b.reads record = true) ∧
      ((∀ record ∈ records, b.reads record = true) → ∀ conditions cells, Cell.ofValues (conditions.map (·.2)) = .ok cells →
        ∃ found, b.search reached.2 conditions = .ok found) ∧
      ((∃ record ∈ records, b.reads record = false) → ∀ reader : Repository, reader.hydrator.isSome = true →
        (∃ e, reader.allRows b reached.2 = .error e) ∧ ∀ selection, ∃ e, reader.aggregateRows b reached.2 selection = .error e) ∧
      ∀ record, b.Takes record → b.reads record = true := by
  have h := bound_of_created hd (compile_registered hd hschema) hb hcreate hnew
  have hstocked : b.Stocked r (fun record => b.Sound record ∧ ∃ call ∈ calls, Prepares r call record) reached := by
    rw [hreached]
    refine (Stocked.created hcreate hnew).run h fun call hcall record hprepares => ?_
    exact ⟨hsound call hcall record hprepares,call,hcall,hprepares⟩
  obtain ⟨_,t,hholds,hrows⟩ := hstocked
  obtain ⟨records,hrecords⟩ := forall₂_of_forall hrows
  have hstores := hrecords.flip.imp fun _ _ hrow => hrow.2
  have hrow : ∀ record row, (b.Sound record ∧ ∃ call ∈ calls, Prepares r call record) ∧ b.Stores record row →
      ((∃ found, recordOf t row b.columns = .ok found) ↔ b.reads record = true) := fun record row hrow =>
    hrow.2.recordOf_iff h hholds.columns hrow.1.1
  have htable := table_found hholds.found
  have hall : (∃ found, b.all reached.2 = .ok found) ↔ ∀ record ∈ records, b.reads record = true := by
    have hselect : t.select [] = t.rows := List.filter_eq_self.mpr fun _ _ => rfl
    have heq : b.all reached.2 = b.recordsOf t t.rows := by
      rw [all,search,htable]
      change b.recordsOf t (t.select []) = _
      rw [hselect]
    rw [heq,recordsOf_iff]
    constructor
    · intro hread record hrecord
      obtain ⟨row,hmem,hstored⟩ := exists_left_of_forall₂ hrecords hrecord
      exact (hrow record row hstored).mp (hread row hmem)
    · intro hread row hmem
      obtain ⟨record,hrecord,hstored⟩ := exists_right_of_forall₂ hrecords hmem
      exact (hrow record row hstored).mpr (hread record hrecord)
  refine ⟨t,records,hholds.found,hstores,?_,hall,?_,?_,fun _ htakes => htakes.reads⟩
  · intro record hrecord
    obtain ⟨row,_,hstored⟩ := exists_left_of_forall₂ hrecords hrecord
    exact hstored.1.2
  · intro hread conditions cells hcells
    rw [search,htable]
    simp only [pure_bind,hcells,ok_bind]
    refine recordsOf_iff.mpr fun row hmem => ?_
    obtain ⟨record,hrecord,hstored⟩ := exists_right_of_forall₂ hrecords (List.mem_of_mem_filter hmem)
    exact (hrow record row hstored).mpr (hread record hrecord)
  · rintro ⟨record,hrecord,hunread⟩ reader hhydrator
    have hfails : ∃ e, b.all reached.2 = .error e := by
      cases hanswer : b.all reached.2 with
      | error e => exact ⟨e,rfl⟩
      | ok found =>
        rw [hall.mp ⟨found,hanswer⟩ record hrecord] at hunread
        cases hunread
    obtain ⟨e,he⟩ := hfails
    have hrequire : reader.requireHydrator = .ok () := by rw [Repository.requireHydrator,if_pos hhydrator]
    refine ⟨⟨e,?_⟩,fun selection => ⟨e,?_⟩⟩
    · rw [Repository.allRows,hrequire,he]
      rfl
    · rw [Repository.aggregateRows,hrequire,he]
      rfl

/-- An appointment, which has a day. -/
def appointment : Class Value := ⟨.defined "Appointment" 0 [.builtin .object], none⟩

/-- A new appointment on some day. -/
def appointing (id : String) (day : Value) : Call where
  operation := .insert
  entity := .object ⟨0, appointment, [("id", .str id), ("day", day)], [], []⟩
  world := { clock := default }

/-- An appointment on a leap day. -/
def leapDay : Call := appointing "1" (.date ⟨2024, 2, 29⟩)

/-- An appointment at noon of the leap day. -/
def leapNoon : Call := appointing "2" (.moment ⟨⟨2024, 2, 29⟩, 12, 0, 0, 0, none⟩)

/-- A repository of appointments. -/
def appointments : Except Error (Repository × TableBinding × Database) := do
  let registry ← ({} : Registry).registerProperty (.cls appointment) (.str "day") [("type", .type (.builtin .date))]
  let d ← registry.descriptor (.cls appointment)
  let schema ← (Relational.compile registry (.ok Settings.defaults) (.cls appointment) none 0).result
  let b ← ofSchema d schema
  let r ← Repository.ofDescriptor d none
  let db ← b.definition.create []
  return (r, b, db)

/-- Whether what a call prepares has nothing but texts, dates and moments for the columns. -/
def preparesPlain (r : Repository) (b : TableBinding) (call : Call) : Bool :=
  match (runOn (prepare call.operation) (call.writing (r, ()))).1 with
  | .ok (_, record) => b.columns.all fun entry =>
    match record.field entry.1 with
    | .str _ | .date _ | .moment _ => true
    | _ => false
  | .error _ => true

theorem sound_of_preparesPlain {call : Call} (h : preparesPlain r b call = true) (hprepares : Prepares r call record) :
    b.Sound record := by
  obtain ⟨_,id,hprepare⟩ := hprepares
  rw [preparesPlain,hprepare] at h
  intro entry hentry
  have hplain := List.all_eq_true.mp h entry hentry
  cases hfield : record.field entry.1 <;> first | trivial | (rw [hfield] at hplain; cases hplain)

/-- Whether reading failed for a text that is no date. -/
def isUnread : Except Error (List Record) → Bool
  | .error (.value (.calendar (.str "2024-02-29T12:00:00") .shape)) => true
  | _ => false

theorem eq_of_isUnread {answer : Except Error (List Record)} (h : isUnread answer = true) :
    answer = .error (.value (.calendar (.str "2024-02-29T12:00:00") .shape)) := by
  unfold isUnread at h
  split at h
  · rfl
  · cases h

/-- One of the two appointments is not read, and so none is. -/
theorem readable_iff_written_appointments : ∃ r b db record, appointments = .ok (r, b, db) ∧
    (∃ call ∈ [leapDay, leapNoon], Prepares r call record) ∧ b.reads record = false ∧
    ∀ reader : Repository, reader.hydrator.isSome = true →
      ∃ e, reader.allRows b (Call.run (·.onRows b) (r, db) [leapDay, leapNoon]).2 = .error e := by
  have hok : (appointments.toOption.any fun opened =>
      [leapDay, leapNoon].all (preparesPlain opened.1 opened.2.1) &&
        isUnread (opened.2.1.all (Call.run (·.onRows opened.2.1) (opened.1, opened.2.2) [leapDay, leapNoon]).2)) = true := by
    decide +kernel
  obtain ⟨⟨r,b,db⟩,happointments,h⟩ := exists_ok_of_any hok
  obtain ⟨hplain,hunread⟩ := Bool.and_eq_true_iff.mp h
  have hall := eq_of_isUnread hunread
  obtain ⟨registry,_,h⟩ := bind_eq_ok.mp happointments
  obtain ⟨d,schema,b,_,db,hd,hschema,hb,_,hcreate,h⟩ := exists_created h
  cases pure_eq_ok.mp h
  obtain ⟨t,records,_,_,hprepared,hiff,_,hfails,_⟩ := readable_iff_written hd hschema hb hcreate rfl
    (fun call hcall _ => sound_of_preparesPlain (List.all_eq_true.mp hplain call hcall)) rfl
  obtain ⟨record,hrecord,hreads⟩ : ∃ record ∈ records, b.reads record = false := by
    by_contra hnone
    push Not at hnone
    obtain ⟨found,hfound⟩ := hiff.mpr fun record hrecord => Bool.eq_true_of_not_eq_false (hnone record hrecord)
    cases hfound.symm.trans hall
  exact ⟨_,b,db,record,happointments,hprepared record hrecord,hreads,
    fun reader hreader => (hfails ⟨record,hrecord,hreads⟩ reader hreader).1⟩

/-- An appointment at noon is accepted where a day was declared, after which the other appointment, which could be read
before, can no longer be read with all. -/
theorem readable_iff_written_noon : ∃ r b db, appointments = .ok (r, b, db) ∧
    (∃ found, b.all (leapDay.on (·.onRows b) (r, db)).2.2 = .ok found) ∧
    (leapNoon.on (·.onRows b) (leapDay.on (·.onRows b) (r, db)).2).1 = .ok () ∧
    b.all (leapNoon.on (·.onRows b) (leapDay.on (·.onRows b) (r, db)).2).2.2 =
      .error (.value (.calendar (.str "2024-02-29T12:00:00") .shape)) := by
  have hok : (appointments.toOption.any fun opened =>
      (opened.2.1.all (leapDay.on (·.onRows opened.2.1) (opened.1, opened.2.2)).2.2).isOk &&
      (leapNoon.on (·.onRows opened.2.1) (leapDay.on (·.onRows opened.2.1) (opened.1, opened.2.2)).2).1.isOk &&
      isUnread (opened.2.1.all
        (leapNoon.on (·.onRows opened.2.1) (leapDay.on (·.onRows opened.2.1) (opened.1, opened.2.2)).2).2.2)) = true := by
    decide +kernel
  obtain ⟨⟨r,b,db⟩,happointments,h⟩ := exists_ok_of_any hok
  simp only [Bool.and_eq_true] at h
  obtain ⟨⟨hread,haccepted⟩,hunread⟩ := h
  obtain ⟨_,haccepted⟩ := exists_ok_of_isOk haccepted
  exact ⟨r,b,db,happointments,exists_ok_of_isOk hread,haccepted,eq_of_isUnread hunread⟩

end TableBinding

end Trischema
