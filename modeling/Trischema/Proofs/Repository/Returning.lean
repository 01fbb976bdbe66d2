import Trischema.Proofs.Repository.Storing
import Trischema.Proofs.Table.Addressing

/-!
What a table gives back of the instances of any class. A row is read as what its columns give back of the record that
was written to it, and every row that writes leave in a table can be read.
-/

namespace Trischema

/-- Without a hydrator nothing is read, so that it need not be looked for before. -/
theorem Repository.requireHydrator_hydrate (r : Repository) (record : Record) :
    (r.requireHydrator >>= fun _ => r.hydrate record) = r.hydrate record := by
  rw [requireHydrator,hydrate]
  cases r.hydrator with
  | none => rfl
  | some hydrator => rfl

namespace TableBinding

open Relational Write Adapter

/-- Whether a record has, for every column, a value of the kind that the column is for, and something for a primary
key. -/
structure Takes (b : TableBinding) (record : Record) : Prop where
  values : ∀ entry ∈ b.columns, entry.2.type.Takes (record.field entry.1)
  primary : ∀ entry ∈ b.columns, entry.2.primary = true → record.field entry.1 ≠ .null

/-- Whether a value is what a column gives back of a record. -/
def Returns (record : Record) (entry : String × Column) (w : Value) : Prop :=
  w.same (record.field entry.1) = entry.2.type.returns (record.field entry.1)

/-- Whether a row is read as what the columns give back of a record. -/
def Gives (b : TableBinding) (record : Record) (row : Row) : Prop :=
  List.Forall₂ (fun entry cell => ∃ w, entry.2.decode cell.toValue = .ok w ∧ Returns record entry w) b.columns row.cells

variable {s : Settings} {d : Descriptor} {b : TableBinding} {db db' : Database} {t : Table} {record : Record}
  {row : Row} {id : String}

/-- What a row keeps of a value of the kind of its column is what the column makes of it: no number of the row takes
its place. -/
theorem Fills.stored (htakes : b.Takes record) {entry : String × Column} (hentry : entry ∈ b.columns) {x : Cell}
    (hfills : Fills record entry x) :
    ∃ cell, Written record entry cell ∧ x = cell.stored entry.2.type.affinity := by
  obtain ⟨cell,hwritten,hx⟩ := hfills
  refine ⟨cell,hwritten,hx.resolve_right ?_⟩
  rintro ⟨hnull,hnumbers,_⟩
  obtain ⟨hprimary,haffinity⟩ := Bool.and_eq_true_iff.mp hnumbers
  obtain ⟨bound,hbound,hcell⟩ := hwritten
  obtain ⟨n,hn⟩ := Column.stored_integer (beq_iff_eq.mp haffinity) (htakes.values entry hentry)
    (htakes.primary entry hentry hprimary) hbound hcell
  cases hnull.symm.trans hn

/-- A row that keeps a record of values of the kinds of the columns gives it back. -/
theorem Stores.gives (htakes : b.Takes record) (hstores : b.Stores record row) : b.Gives record row := by
  have hall := (List.forall₂_and_left _ _).mpr ⟨fun _ hentry => hentry,hstores⟩
  refine hall.imp fun entry x ⟨hentry,hfills⟩ => ?_
  obtain ⟨cell,⟨bound,hbound,hcell⟩,rfl⟩ := hfills.stored htakes hentry
  exact Column.gives (htakes.values entry hentry) hbound hcell

/-- A row that gives a record back is read as a record with the same keys. -/
theorem Gives.read (h : Bound s d b) (ht : t.columns = b.definition.empty.columns) (hgives : b.Gives record row) :
    ∃ found, recordOf t row b.columns = .ok found ∧ found.map (·.1) = b.columns.map (·.1) ∧
      ∀ entry ∈ b.columns, Returns record entry (found.field entry.1) := by
  have hfound : ∀ entry ∈ b.columns, ∃ f : String × Value, (∃ i, t.position? entry.2.name = some i ∧ f.1 = entry.1 ∧
      entry.2.decode (Table.cellAt row.cells i).toValue = .ok f.2) ∧ Returns record entry f.2 := by
    intro entry hentry
    obtain ⟨i,hi⟩ := List.mem_iff_getElem?.mp hentry
    obtain ⟨cell,hcell,w,hw,hreturns⟩ := getElem?_of_forall₂ hgives.flip hi
    refine ⟨(entry.1,w),⟨i,h.position? ht hi,rfl,?_⟩,hreturns⟩
    rw [Table.cellAt,List.getD_eq_getElem?_getD,hcell]
    exact hw
  obtain ⟨found,hall⟩ := forall₂_of_forall hfound
  have hkeys : found.map (·.1) = b.columns.map (·.1) := by
    refine (map_eq_of_forall₂ hall ?_).symm
    rintro entry f ⟨⟨_,_,hkey,_⟩,_⟩
    exact hkey.symm
  refine ⟨found,recordOf_eq_ok.mpr (hall.imp fun _ _ hf => hf.1),hkeys,fun entry hentry => ?_⟩
  obtain ⟨f,hf,⟨_,_,hkey,_⟩,hreturns⟩ := exists_right_of_forall₂ hall hentry
  rw [Record.field,← hkey,lookup_of_nodup (by rw [hkeys]; exact h.columns_keys_nodup) hf]
  exact hreturns

/-- What holds of the table of a binding whose rows can all be read. -/
structure Legible (b : TableBinding) (db : Database) (t : Table) : Prop where
  holds : b.Holds db t
  gives : ∀ row ∈ t.rows, ∃ record, b.Gives record row

/-- The rows of a legible table are read one by one. -/
theorem Legible.records (hlegible : b.Legible db t) (h : Bound s d b) {rows : List Row} (hrows : rows ⊆ t.rows) :
    ∃ records, b.recordsOf t rows = .ok records := by
  have hall : ∀ row ∈ rows, ∃ found, recordOf t row b.columns = .ok found := by
    intro row hrow
    obtain ⟨record,hgives⟩ := hlegible.gives row (hrows hrow)
    obtain ⟨found,hfound,_⟩ := hgives.read h hlegible.holds.columns
    exact ⟨found,hfound⟩
  obtain ⟨records,hrecords⟩ := forall₂_of_forall hall
  exact ⟨records,mapM_eq_ok.mpr hrecords⟩

/-- The row that an insertion adds to those that are there. -/
structure Inserts (b : TableBinding) (db' : Database) (t : Table) (id : String) (record : Record) (row : Row) :
    Prop where
  fresh : ∃ primary, b.primaryName = .ok primary ∧ t.select [⟨primary, .text id⟩] = []
  stores : b.Stores record row
  gives : b.Gives record row
  legible : b.Legible db' { t with rows := Table.place t.rows row }

/-- What is asked of the instance of a call: what is to be stored of it is of the kinds of the columns. -/
def Admits (b : TableBinding) (r : Repository) (call : Call) : Prop :=
  call.operation ≠ .delete → ∀ id record,
    (runOn (prepare call.operation) (call.writing (r, ()))).1 = .ok (id, record) → b.Takes record

variable {r : Repository} {opened : Repository × Database}

/-- The column of the primary key is that of the identifier. -/
theorem Bound.identifier_column (h : Bound s d b) {identifier : Property} (hmem : identifier ∈ d.properties)
    (hidentifies : identifier.isIdentifier = true) {primary : String} (hprimary : b.primaryName = .ok primary) :
    identifier.isRelationship = false ∧ ∃ c, (identifier.key, c) ∈ b.columns ∧ c.name = primary := by
  rw [primaryName] at hprimary
  split at hprimary
  · rename_i c hc
    cases hprimary
    obtain ⟨p,hp,hscalar,hcolumn⟩ := h.compiled.column_mem (List.mem_of_find?_eq_some hc)
    have hid : p.isIdentifier = true := by
      rw [← (columnOf_ok hcolumn).2.2.2.1]
      exact List.find?_some hc
    obtain rfl := Descriptor.eq_of_identifier h.identifiers hp hmem hid hidentifies
    obtain ⟨c',hc',hcolumn'⟩ := h.exists_column hp hscalar
    cases hcolumn.symm.trans hcolumn'
    exact ⟨hscalar,c,hc',rfl⟩
  · cases hprimary

/-- The row of a record meets the condition that its column equals the text of its value there. -/
theorem Stores.meets (h : Bound s d b) (ht : t.columns = b.definition.empty.columns) (hstores : b.Stores record row)
    {entry : String × Column} (hentry : entry ∈ b.columns)
    (hfinds : entry.2.type.finds (record.field entry.1) = true) :
    t.meets row ⟨entry.2.name, .text (record.field entry.1).display⟩ = true := by
  obtain ⟨x,⟨cell,⟨bound,hbound,hcell⟩,hx⟩,hmeets⟩ := hstores.cell h ht hentry
  have hfound := Column.finds_cell hfinds hbound hcell
  rcases hx with rfl | ⟨hnull,_⟩
  · rw [hmeets,hfound]
  · rw [hnull,Cell.holds_null] at hfound
    cases hfound

/-- What reads hand to a hydrator of the record that was stored under an identifier: one record for all of its columns,
which is listed among all records and is the one that is found, if the identifier is of a kind that is found by its
text. -/
structure ReadBack (b : TableBinding) (identifier : Property) (db : Database) (id : String) (record found : Record) :
    Prop where
  keys : found.map (·.1) = b.columns.map (·.1)
  returns : ∀ entry ∈ b.columns, Returns record entry (found.field entry.1)
  listed : ∃ before after, ∀ r : Repository,
    r.allRows b db = r.requireHydrator >>= fun _ => r.hydrateAll (before ++ found :: after)
  found : (∀ c, (identifier.key, c) ∈ b.columns → c.type.finds (record.field identifier.key) = true) →
    ∀ r : Repository, r.findRow b db (.str id) = r.hydrate found

theorem Inserts.readBack (h : Bound s d b) (ht : t.columns = b.definition.empty.columns)
    (hinserts : b.Inserts db' t id record row) {identifier : Property} (hmem : identifier ∈ d.properties)
    (hidentifies : identifier.isIdentifier = true)
    (hid : identifier.isRelationship = false → (record.field identifier.key).display = id) :
    ∃ found, b.ReadBack identifier db' id record found := by
  obtain ⟨primary,hprimary,hnone⟩ := hinserts.fresh
  obtain ⟨found,hfound,hkeys,hreturns⟩ := hinserts.gives.read h hinserts.legible.holds.columns
  obtain ⟨hscalar,c,hc,rfl⟩ := h.identifier_column hmem hidentifies hprimary
  have hlegible := hinserts.legible
  have htable := table_found hlegible.holds.found
  refine ⟨found,hkeys,hreturns,?_,fun hfinds r => ?_⟩
  · obtain ⟨records,hrecords⟩ := hlegible.records h (List.Subset.refl _)
    have hall : b.all db' = .ok records := by
      have hselect : ({ t with rows := Table.place t.rows row } : Table).select [] = Table.place t.rows row :=
        List.filter_eq_self.mpr fun _ _ => rfl
      rw [all,search,htable]
      change b.recordsOf _ (Table.select _ []) = _
      rw [hselect]
      exact hrecords
    obtain ⟨before,_,after,rfl,_,hmiddle,_⟩ := exists_middle_of_forall₂ (mapM_eq_ok.mp hrecords)
    cases hmiddle.symm.trans hfound
    refine ⟨before,after,fun r => ?_⟩
    rw [Repository.allRows,hall]
    rfl
  · have hmeets := hinserts.stores.meets (t := { t with rows := Table.place t.rows row }) h ht hc (hfinds c hc)
    rw [hid hscalar] at hmeets
    have hselect : ({ t with rows := Table.place t.rows row } : Table).select [⟨c.name, .text id⟩] = [row] := by
      have hperm := (Table.place_perm t.rows row).filter
        fun x => [(⟨c.name, .text id⟩ : Table.Condition)].all (t.meets x)
      rw [List.filter_cons_of_pos (by rw [List.all_cons,List.all_nil,Bool.and_true]; exact hmeets)] at hperm
      change (t.rows.filter _) = [] at hnone
      rw [hnone] at hperm
      exact List.perm_singleton.mp hperm
    have hsearch : b.search db' [(c.name, .str id)] = .ok [found] := by
      rw [search,htable]
      change b.recordsOf _ (Table.select _ [⟨c.name, .text id⟩]) = _
      rw [hselect]
      exact mapM_eq_ok.mpr (.cons hfound .nil)
    have hdisplay : (Value.str id).display = id := rfl
    rw [Repository.findRow,hprimary,hdisplay]
    simp only [ok_bind,hsearch]
    exact r.requireHydrator_hydrate found

/-- An insertion that succeeds adds the row of what is prepared of the instance. -/
theorem Stocked.inserted (hstocked : b.Stocked r b.Takes opened) (h : Bound s d b) {call : Call}
    (hop : call.operation = .insert) (hadmits : b.Admits r call) (hok : (call.on (·.onRows b) opened).1 = .ok ()) :
    ∃ id record t row, (runOn (prepare .insert) (call.writing (r, ()))).1 = .ok (id, record) ∧
      t.columns = b.definition.empty.columns ∧ b.Inserts (call.on (·.onRows b) opened).2.2 t id record row := by
  rcases opened with ⟨_,db⟩
  obtain ⟨⟨published,rfl⟩,t,hholds,hrows⟩ := hstocked
  have hdid := b.did r call published db
  generalize call.on (·.onRows b) ({ r with published }, db) = left at hdid hok
  cases hdid with
  | unprepared | refused => cases hok
  | @changed id record db' _ _ hprepare hchange =>
    obtain ⟨rows,halters,_,hholds'⟩ := hholds.alters h (Stocked.wide hrows) hchange
    have htakes := hadmits (by rw [hop]; decide) id record hprepare
    have hgives : ∀ row ∈ rows, ∃ record, b.Gives record row := by
      intro row hrow
      rcases halters.rows row hrow with hrow | ⟨_,hstores⟩
      · obtain ⟨before,hbefore,hstores⟩ := hrows row hrow
        exact ⟨before,hstores.gives hbefore⟩
      · exact ⟨record,hstores.gives htakes⟩
    rw [hop] at halters hprepare
    cases halters with
    | @insert primary row hprimary hnew hstores =>
      exact ⟨id,record,t,row,hprepare,hholds.columns,⟨primary,hprimary,hnew⟩,hstores,hstores.gives htakes,hholds',hgives⟩

/-- An empty store in memory keeps what is prepared of an instance that is inserted. -/
theorem inserted_records {call : Call} (hop : call.operation = .insert) {id : String} {record : Record}
    (hprepare : (runOn (prepare .insert) (call.writing (r, ()))).1 = .ok (id, record)) :
    (call.on Operation.onRecords (r, [])).2.2 = [(id, record)] := by
  have hready : Records.adapter.Ready call.operation (call.writing (r, [])) := by
    rw [hop]
    exact fun h => by cases h
  have hspec := write_spec hready
  have hsame := congrArg Prod.fst (uniform_prepare .insert Unit Records (call.writing (r, ())) [])
  change (runOn (prepare .insert) (call.writing (r, []))).1 = _ at hsame
  rw [write_records,hop,hsame,hprepare] at hspec
  have hfree : Records.takenGroup? r.descriptor [] record = none := List.find?_eq_none.mpr fun _ _ => Bool.false_ne_true
  have hchange : Records.adapter.change .insert r id record [] = .ok [(id, record)] := by
    change (Records.checkUnique r.descriptor [] record >>= fun _ => .ok ([] ++ [(id, record)])) = _
    rw [Records.checkUnique,hfree]
    rfl
  dsimp only [Call.writing] at hspec
  rw [hchange] at hspec
  obtain _ | hfinished := hspec
  rw [← hop] at hfinished
  rw [Call.on_finished hfinished]
  rfl

/-- After every series of writes to a new table, an instance that is inserted is read back as the record that memory
keeps of it, for all columns but those that cannot give its value back. -/
theorem insertions_return {registry : Registry} {c : Class Value} {schema : Relational} {db₀ db : Database}
    {calls : List Call} {call : Call} (hd : registry.descriptor (.cls c) = .ok r.descriptor)
    (hidentifier : r.descriptor.identifier? = some r.identifier)
    (hschema : (Relational.compile registry (.ok s) (.cls c) none 0).result = .ok schema)
    (hb : ofSchema r.descriptor schema = .ok b) (hcreate : b.definition.create db₀ = .ok db)
    (hnew : db₀.table? b.definition.name = none) (hadmits : ∀ earlier ∈ calls, b.Admits r earlier)
    (hopened : opened = Call.run (·.onRows b) (r, db) calls) (hop : call.operation = .insert)
    (hadmitted : b.Admits r call) (hok : (call.on (·.onRows b) opened).1 = .ok ()) :
    ∃ id record found, (call.on Operation.onRecords (r, [])).2.2 = [(id, record)] ∧
      b.ReadBack r.identifier (call.on (·.onRows b) opened).2.2 id record found := by
  have h := bound_of_created hd (compile_registered hd hschema) hb hcreate hnew
  have hmem := List.mem_of_find?_eq_some hidentifier
  have hidentifies := List.find?_some hidentifier
  have hstocked : b.Stocked r b.Takes opened := by
    rw [hopened]
    refine (Stocked.created hcreate hnew).run h fun earlier hearlier record ⟨hop,id,hprepare⟩ => ?_
    exact hadmits earlier hearlier hop id record hprepare
  obtain ⟨id,record,t,row,hprepare,ht,hinserts⟩ := hstocked.inserted h hop hadmitted hok
  have hid (hscalar : r.identifier.isRelationship = false) : (record.field r.identifier.key).display = id :=
    prepare_display hprepare h.keys hmem hscalar
  obtain ⟨found,hfound⟩ := hinserts.readBack h ht hmem hidentifies hid
  exact ⟨id,record,found,inserted_records hop hprepare,hfound⟩

/-- A visit, with the guests who came and the days on which they did. -/
def visit : Class Value := ⟨.defined "Visit" 0 [.builtin .object], none⟩

/-- The first visit, of two guests on a leap day. -/
def visiting : Call where
  operation := .insert
  entity := .object ⟨0, visit, [("id", .str "1"), ("guests", .list [.str "Ada", .str "Alan"]),
    ("days", .list [.date ⟨2024, 2, 29⟩])], [], []⟩
  world := { clock := default }

/-- Both repositories of visits. -/
def visits : Except Error (Repository × TableBinding × Database) := do
  let registry ← ({} : Registry).registerProperty (.cls visit) (.str "guests")
    [("type", .type (.generic .list [.builtin .text]))]
  let registry ← registry.registerProperty (.cls visit) (.str "days") [("type", .type (.generic .list [.builtin .date]))]
  let d ← registry.descriptor (.cls visit)
  let schema ← (Relational.compile registry (.ok Settings.defaults) (.cls visit) none 0).result
  let b ← ofSchema d schema
  let r ← Repository.ofDescriptor d none
  let db ← b.definition.create []
  return (r, b, db)

/-- Whether a value is a text, or a list of texts and dates. -/
def isListed : Value → Bool
  | .str _ => true
  | .list xs => xs.all fun x =>
    match x with
    | .str _ | .date _ => true
    | _ => false
  | _ => false

theorem takes_listed {type : ColumnType} {v : Value} (htype : type = .text ∨ type = .array) (h : isListed v = true) :
    type.Takes v ∧ v ≠ .null := by
  have hsound : ∀ xs : List Value, (xs.all fun x =>
      match x with
      | .str _ | .date _ => true
      | _ => false) = true → AllSound xs := by
    intro xs
    induction xs with
    | nil => exact fun _ => trivial
    | cons x xs ih =>
      intro h
      obtain ⟨hx,hxs⟩ := Bool.and_eq_true_iff.mp h
      have hsound : x.IsSound := by cases x <;> trivial
      exact ⟨hsound,ih hxs⟩
  cases v with
  | str s => rcases htype with rfl | rfl <;> exact ⟨trivial,Value.noConfusion⟩
  | list xs => rcases htype with rfl | rfl <;> exact ⟨by first | trivial | exact hsound xs h,Value.noConfusion⟩
  | _ => cases h

/-- Whether a table is of texts and arrays, and a call gives it nothing else. -/
def isOfLists (r : Repository) (b : TableBinding) (call : Call) : Bool :=
  b.columns.all (fun entry => entry.2.type == .text || entry.2.type == .array) &&
    match (runOn (prepare call.operation) (call.writing (r, ()))).1 with
    | .ok (_, record) => b.columns.all fun entry => isListed (record.field entry.1)
    | .error _ => true

theorem admits_lists {call : Call} (h : isOfLists r b call = true) : b.Admits r call := by
  simp only [isOfLists,Bool.and_eq_true,List.all_eq_true,Bool.or_eq_true,beq_iff_eq] at h
  obtain ⟨htypes,hlisted⟩ := h
  intro _ id record hprepare
  rw [hprepare] at hlisted
  have hlisted := List.all_eq_true.mp hlisted
  exact ⟨fun entry hentry => (takes_listed (htypes entry hentry) (hlisted entry hentry)).1,
    fun entry hentry _ => (takes_listed (htypes entry hentry) (hlisted entry hentry)).2⟩

theorem insertions_return_visits : ∃ r b db id record found, visits = .ok (r, b, db) ∧
    (visiting.on Operation.onRecords (r, [])).2.2 = [(id, record)] ∧
    b.ReadBack r.identifier (visiting.on (·.onRows b) (r, db)).2.2 id record found := by
  have hok : (visits.toOption.any fun opened => isOfLists opened.1 opened.2.1 visiting &&
      (visiting.on (·.onRows opened.2.1) (opened.1, opened.2.2)).1.toOption.isSome) = true := by decide +kernel
  obtain ⟨⟨r,b,db⟩,hvisits,h⟩ := exists_ok_of_any hok
  obtain ⟨hlists,hanswer⟩ := Bool.and_eq_true_iff.mp h
  have hinserted : (visiting.on (·.onRows b) (r, db)).1 = .ok () := by
    revert hanswer
    cases (visiting.on (·.onRows b) (r, db)).1 with
    | ok _ => exact fun _ => rfl
    | error _ => exact fun h => by cases h
  obtain ⟨first,_,h⟩ := bind_eq_ok.mp hvisits
  obtain ⟨registry,_,h⟩ := bind_eq_ok.mp h
  obtain ⟨d,schema,b,_,db,hd,hschema,hb,hidentifier,hcreate,h⟩ := exists_created h
  cases pure_eq_ok.mp h
  obtain ⟨id,record,found,hrecords,hfound⟩ := insertions_return hd hidentifier hschema hb hcreate rfl
    (List.forall_mem_nil _) rfl rfl (admits_lists hlists) hinserted
  exact ⟨_,_,_,id,record,found,hvisits,hrecords,hfound⟩

/-- Whether memory answers with the day that was written, and the table with its text. -/
def isDayAndText : Except Error Value → Except Error Value → Bool
  | .ok (.list [.date ⟨2024, 2, 29⟩]), .ok (.list [.str "2024-02-29"]) => true
  | _, _ => false

/-- The days of a visit that was inserted are found as dates in memory and as texts in a table. -/
theorem insertions_return_days : ∃ r b db, visits = .ok (r, b, db) ∧
    ({ r with hydrator := some (.project "days") } : Repository).findRecord
      (visiting.on Operation.onRecords (r, [])).2.2 (.str "1") = .ok (.list [.date ⟨2024, 2, 29⟩]) ∧
    ({ r with hydrator := some (.project "days") } : Repository).findRow b
      (visiting.on (·.onRows b) (r, db)).2.2 (.str "1") = .ok (.list [.str "2024-02-29"]) := by
  have hok : (visits.toOption.any fun opened =>
      isDayAndText
        (({ opened.1 with hydrator := some (.project "days") } : Repository).findRecord
          (visiting.on Operation.onRecords (opened.1, [])).2.2 (.str "1"))
        (({ opened.1 with hydrator := some (.project "days") } : Repository).findRow opened.2.1
          (visiting.on (·.onRows opened.2.1) (opened.1, opened.2.2)).2.2 (.str "1"))) = true := by decide +kernel
  obtain ⟨⟨r,b,db⟩,hvisits,h⟩ := exists_ok_of_any hok
  unfold isDayAndText at h
  split at h
  · rename_i hrecord hrow
    exact ⟨r,b,db,hvisits,hrecord,hrow⟩
  · cases h

end TableBinding

end Trischema
