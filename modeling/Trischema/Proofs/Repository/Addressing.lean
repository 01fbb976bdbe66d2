import Trischema.Proofs.Repository.Returning

/-!
Rows under their identifiers. A ledger of the calls that got through says which records are stored; the table holds one
row for each, and a text finds those rows whose keys it addresses in the column of the identifier.
-/

namespace Trischema

open Write Adapter

/-- The stored records after an operation that got through. -/
def Operation.enter (id : String) (record : Record) (records : Records) : Operation → Records
  | insert => records ++ [(id, record)]
  | update => setNamed records id record
  | delete => records.filter fun (k, _) => k != id

namespace TableBinding

/-- The stored records after a call. -/
def entered (b : TableBinding) (r : Repository) (db : Database) (records : Records) (call : Call) : Records :=
  match (runOn (prepare call.operation) (call.writing (r, ()))).1 with
  | .error _ => records
  | .ok (id, record) =>
    match b.adapter.change call.operation r id record db with
    | .error _ => records
    | .ok _ => call.operation.enter id record records

/-- The stored records after a series of calls. -/
def ledger (b : TableBinding) (r : Repository) : Repository × Database → Records → List Call → Records
  | _, records, [] => records
  | opened, records, call :: rest =>
    ledger b r (call.on (·.onRows b) opened).2 (b.entered r opened.2 records call) rest

/-- What is asked of the instance of a call: its identifier is a key of the kind of a column, and its hook leaves it. -/
def Identifies (r : Repository) (type : ColumnType) (call : Call) : Prop :=
  ∀ id record, (runOn (prepare call.operation) (call.writing (r, ()))).1 = .ok (id, record) →
    ∃ v, type.Keys v ∧ v.display = id ∧ (call.operation ≠ .delete → record.field r.identifier.key = v)

/-- Whether a row keeps the record of an entry, under the text of its key. -/
structure Enters (b : TableBinding) (key : String) (c : Column) (entry : String × Record) (row : Row) : Prop where
  stores : b.Stores entry.2 row
  keyed : c.type.Keys (entry.2.field key)
  display : (entry.2.field key).display = entry.1

variable {s : Settings} {d : Descriptor} {b : TableBinding} {db db' : Database} {t : Table} {record : Record}
  {row : Row} {id key : String} {c : Column} {entry : String × Record} {records : Records} {r : Repository}
  {opened : Repository × Database} {rows : List Row}

theorem Enters.meets (henters : b.Enters key c entry row) (h : Bound s d b) (ht : t.columns = b.definition.empty.columns)
    (hc : (key, c) ∈ b.columns) (text : String) :
    t.meets row ⟨c.name, .text text⟩ = c.type.addresses (entry.2.field key) text := by
  obtain ⟨x,⟨cell,⟨bound,hbound,hcell⟩,hx⟩,hmeets⟩ := henters.stores.cell h ht hc
  obtain ⟨hthere,hholds⟩ := Column.holds_addresses henters.keyed hbound hcell
  rw [hmeets]
  rcases hx with rfl | ⟨hnull,_⟩
  · exact hholds text
  · exact absurd hnull hthere

theorem Enters.meets_key (henters : b.Enters key c entry row) (h : Bound s d b)
    (ht : t.columns = b.definition.empty.columns) (hc : (key, c) ∈ b.columns) {v : Value} (hv : c.type.Keys v) :
    t.meets row ⟨c.name, .text v.display⟩ = (c.type.findsKeys && entry.1 == v.display) := by
  rw [henters.meets h ht hc,ColumnType.addresses_display henters.keyed hv,henters.display]

/-- What the ledger says is stored, and what is: one row for each record. -/
structure Tallies (b : TableBinding) (key : String) (c : Column) (records : Records) (t : Table) (rows : List Row) :
    Prop where
  perm : rows.Perm t.rows
  enters : List.Forall₂ (b.Enters key c) records rows
  ids : c.type.findsKeys = true → (records.map (·.1)).Nodup

namespace Tallies

theorem wide (htallies : b.Tallies key c records t rows) : ∀ row ∈ t.rows, row.cells.length = b.columns.length := by
  intro row hrow
  obtain ⟨entry,_,henters⟩ := exists_left_of_forall₂ htallies.enters (htallies.perm.mem_iff.mpr hrow)
  exact henters.stores.length_eq.symm

/-- No row is found by a text that addresses no key. -/
theorem absent (htallies : b.Tallies key c records t rows) (h : Bound s d b)
    (ht : t.columns = b.definition.empty.columns) (hc : (key, c) ∈ b.columns) {text : String}
    (hnone : ∀ entry ∈ records, c.type.addresses (entry.2.field key) text = false) :
    t.select [⟨c.name, .text text⟩] = [] := by
  rw [Table.select,List.filter_eq_nil_iff]
  intro row hrow
  obtain ⟨entry,hentry,henters⟩ := exists_left_of_forall₂ htallies.enters (htallies.perm.mem_iff.mpr hrow)
  rw [List.all_cons,List.all_nil,Bool.and_true,henters.meets h ht hc,hnone entry hentry]
  exact Bool.false_ne_true

/-- A key whose text finds a row is that of an entry, in a column that finds its keys. -/
theorem there (htallies : b.Tallies key c records t rows) (h : Bound s d b)
    (ht : t.columns = b.definition.empty.columns) (hc : (key, c) ∈ b.columns) {v : Value} (hv : c.type.Keys v)
    (hsome : t.select [⟨c.name, .text v.display⟩] ≠ []) :
    c.type.findsKeys = true ∧ records.contains v.display = true := by
  obtain ⟨row,hrow⟩ := List.exists_mem_of_ne_nil _ hsome
  obtain ⟨hmem,hmeets⟩ := List.mem_filter.mp hrow
  rw [List.all_cons,List.all_nil,Bool.and_true] at hmeets
  obtain ⟨entry,hentry,henters⟩ := exists_left_of_forall₂ htallies.enters (htallies.perm.mem_iff.mpr hmem)
  rw [henters.meets_key h ht hc hv,Bool.and_eq_true,beq_iff_eq] at hmeets
  exact ⟨hmeets.1,Records.contains_iff.mpr ⟨entry,hentry,hmeets.2⟩⟩

end Tallies

/-- Where the record and the row of an identifier are among the others. -/
structure Placed (b : TableBinding) (key : String) (c : Column) (records : Records) (t : Table) (id : String)
    (before after : Records) (old : Record) (before' after' : List Row) (row : Row) : Prop where
  records : records = before ++ (id, old) :: after
  apart : ∀ entry ∈ before ++ after, entry.1 ≠ id
  before : List.Forall₂ (b.Enters key c) before before'
  enters : b.Enters key c (id, old) row
  after : List.Forall₂ (b.Enters key c) after after'
  selected : t.select [⟨c.name, .text id⟩] = [row]
  others : (before' ++ after').Perm (t.otherRows row)

section Placed

variable {before after : Records} {old : Record} {before' after' : List Row}

theorem Placed.setNamed_eq (hat : b.Placed key c records t id before after old before' after' row) (record : Record) :
    setNamed records id record = before ++ (id, record) :: after := by
  rw [hat.records]
  exact Records.setNamed_split fun entry hentry => hat.apart entry (List.mem_append_left _ hentry)

theorem Placed.filter_eq (hat : b.Placed key c records t id before after old before' after' row) :
    records.filter (fun (k, _) => k != id) = before ++ after := by
  rw [hat.records]
  exact filter_eq_rest (bne_self_eq_false id) fun entry hentry => bne_iff_ne.mpr (hat.apart entry hentry)

theorem Placed.there (hat : b.Placed key c records t id before after old before' after' row) :
    t.select [⟨c.name, .text id⟩] ≠ [] := by
  rw [hat.selected]
  exact List.cons_ne_nil _ _

end Placed

theorem Tallies.placed (htallies : b.Tallies key c records t rows) (h : Bound s d b) (hholds : b.Holds db t)
    (hc : (key, c) ∈ b.columns) (hfinds : c.type.findsKeys = true) (hthere : records.contains id = true) :
    ∃ before after old before' after' row, b.Placed key c records t id before after old before' after' row := by
  obtain ⟨before,old,after,hrecords,hapart⟩ := Records.exists_split (htallies.ids hfinds) hthere
  have hrows := htallies.perm
  have henters := htallies.enters
  rw [hrecords] at henters
  obtain ⟨before',row,after',rfl,hbefore,hrow,hafter⟩ := exists_middle_of_forall₂ henters
  have hmeets {entry : String × Record} {x : Row} (henters : b.Enters key c entry x) :
      t.meets x ⟨c.name, .text id⟩ = (entry.1 == id) := by
    have hdisplay := hrow.display
    rw [← show _ = id from hdisplay,henters.meets_key h hholds.columns hc hrow.keyed,hfinds]
    rfl
  have haround : ∀ x ∈ before' ++ after', t.meets x ⟨c.name, .text id⟩ = false := by
    intro x hx
    obtain ⟨entry,hentry,henters⟩ := exists_left_of_forall₂ (List.rel_append hbefore hafter) hx
    rw [hmeets henters]
    exact beq_eq_false_iff_ne.mpr (hapart entry hentry)
  have hselected : t.select [⟨c.name, .text id⟩] = [row] := by
    have hperm := hrows.filter fun x => [(⟨c.name, .text id⟩ : Table.Condition)].all (t.meets x)
    rw [filter_eq_middle] at hperm
    · exact List.perm_singleton.mp hperm.symm
    · rw [List.all_cons,List.all_nil,Bool.and_true,hmeets hrow]
      exact beq_self_eq_true id
    · intro x hx
      rw [List.all_cons,List.all_nil,Bool.and_true,haround x hx]
  have hothers : (before' ++ after').Perm (t.otherRows row) := by
    have hnumbers : ((before' ++ row :: after').map (·.number)).Nodup := by
      rw [(hrows.map _).nodup_iff]
      exact List.pairwise_map.mpr (hholds.sound.increasing.imp fun hlt => Int.ne_of_lt hlt)
    rw [List.map_append,List.map_cons,List.nodup_middle,List.nodup_cons,← List.map_append] at hnumbers
    have hrest : (before' ++ row :: after').filter (fun x => x.number != row.number) = before' ++ after' := by
      refine filter_eq_rest (bne_self_eq_false row.number) fun x hx => bne_iff_ne.mpr fun heq => ?_
      exact hnumbers.1 (List.mem_map.mpr ⟨x,hx,heq⟩)
    rw [← hrest]
    exact hrows.filter _
  exact ⟨before,after,old,before',after',row,hrecords,hapart,hbefore,hrow,hafter,hselected,hothers⟩

theorem remove_eq (t : Table) (row : Row) : (t.remove [row]).rows = t.otherRows row := by
  refine List.filter_congr fun x _ => ?_
  rw [List.any_cons,List.any_nil,Bool.or_false,bne,Bool.beq_comm]

/-- What an operation does to the rows, it does to the ledger. -/
theorem Tallies.alters (htallies : b.Tallies key c records t rows) (h : Bound s d b) (hholds : b.Holds db t)
    (hc : (key, c) ∈ b.columns) (hprimary : b.primaryName = .ok c.name) {op : Operation} {v : Value}
    (hv : c.type.Keys v) (hrecord : op ≠ .delete → record.field key = v) {left : List Row}
    (halters : b.Alters t v.display record op left) :
    ∃ rows', b.Tallies key c (op.enter v.display record records) { t with rows := left } rows' := by
  have henters {row : Row} (hop : op ≠ .delete) (hstores : b.Stores record row) :
      b.Enters key c (v.display, record) row := by
    have hfield := hrecord hop
    exact ⟨hstores,by rw [hfield]; exact hv,by rw [hfield]⟩
  cases halters with
  | @insert primary row hname hnew hstores =>
    cases hprimary.symm.trans hname
    refine ⟨rows ++ [row],?_,List.rel_append htallies.enters (.cons (henters Operation.noConfusion hstores) .nil),?_⟩
    · refine List.perm_append_comm.trans ?_
      exact (htallies.perm.cons row).trans (Table.place_perm t.rows row).symm
    · intro hfinds
      rw [Operation.enter,List.map_append,List.nodup_append]
      refine ⟨htallies.ids hfinds,List.nodup_singleton _,fun k hk k' hk' heq => ?_⟩
      obtain ⟨entry,hentry,rfl⟩ := List.mem_map.mp hk
      rw [List.map_singleton,List.mem_singleton] at hk'
      obtain ⟨x,hx,hxenters⟩ := exists_right_of_forall₂ htallies.enters hentry
      -- a row under the same identifier would have been found
      have hselected : x ∈ t.select [⟨c.name, .text v.display⟩] := by
        refine List.mem_filter.mpr ⟨htallies.perm.mem_iff.mp hx,?_⟩
        rw [List.all_cons,List.all_nil,Bool.and_true,hxenters.meets_key h hholds.columns hc hv,hfinds,heq,hk']
        exact beq_self_eq_true _
      rw [hnew] at hselected
      exact absurd hselected List.not_mem_nil
  | update hname hthere _ hone =>
    cases hprimary.symm.trans hname
    obtain ⟨hfinds,hcontains⟩ := htallies.there h hholds.columns hc hv hthere
    obtain ⟨before,after,old,before',after',row,hat⟩ := htallies.placed h hholds hc hfinds hcontains
    obtain ⟨row',hstores,rfl⟩ := hone row hat.selected
    have hset := hat.setNamed_eq record
    refine ⟨before' ++ row' :: after',?_,?_,fun _ => ?_⟩
    · exact List.perm_middle.trans ((hat.others.cons row').trans (Table.place_perm _ row').symm)
    · rw [Operation.enter,hset]
      exact List.rel_append hat.before (.cons (henters Operation.noConfusion hstores) hat.after)
    · have hids := htallies.ids hfinds
      rw [hat.records,List.map_append,List.map_cons] at hids
      rw [Operation.enter,hset,List.map_append,List.map_cons]
      exact hids
  | delete hname hthere =>
    cases hprimary.symm.trans hname
    obtain ⟨hfinds,hcontains⟩ := htallies.there h hholds.columns hc hv hthere
    obtain ⟨before,after,old,before',after',row,hat⟩ := htallies.placed h hholds hc hfinds hcontains
    refine ⟨before' ++ after',?_,?_,fun _ => ?_⟩
    · rw [hat.selected,remove_eq]
      exact hat.others
    · rw [Operation.enter,hat.filter_eq]
      exact List.rel_append hat.before hat.after
    · exact (htallies.ids hfinds).sublist (List.filter_sublist.map _)

/-- A repository over a table that holds what a ledger says. -/
structure Accounts (b : TableBinding) (r : Repository) (c : Column) (records : Records) (opened : Repository × Database) :
    Prop where
  repository : ∃ published, opened.1 = { r with published }
  tallies : ∃ t rows, b.Holds opened.2 t ∧ b.Tallies r.identifier.key c records t rows

theorem Accounts.call (haccounts : b.Accounts r c records opened) (h : Bound s d b) (hc : (r.identifier.key, c) ∈ b.columns)
    (hprimary : b.primaryName = .ok c.name) {call : Call} (hidentifies : Identifies r c.type call) :
    b.Accounts r c (b.entered r opened.2 records call) (call.on (·.onRows b) opened).2 := by
  rcases opened with ⟨_,db⟩
  obtain ⟨⟨published,rfl⟩,t,rows,hholds,htallies⟩ := id haccounts
  have hdid := b.did r call published db
  generalize call.on (·.onRows b) ({ r with published }, db) = left at hdid
  cases hdid with
  | unprepared hprepare =>
    rw [entered,hprepare]
    exact haccounts
  | refused hprepare hchange =>
    rw [entered,hprepare]
    dsimp only at hchange ⊢
    rw [hchange]
    exact haccounts
  | @changed id record db' _ published' hprepare hchange =>
    obtain ⟨v,hv,rfl,hrecord⟩ := hidentifies id record hprepare
    obtain ⟨left,halters,_,hholds'⟩ := hholds.alters h htallies.wide hchange
    obtain ⟨rows',htallies'⟩ := htallies.alters h hholds hc hprimary hv hrecord halters
    rw [entered,hprepare]
    dsimp only at hchange ⊢
    rw [hchange]
    exact ⟨⟨published',rfl⟩,_,rows',hholds',htallies'⟩

theorem Accounts.run (haccounts : b.Accounts r c records opened) (h : Bound s d b)
    (hc : (r.identifier.key, c) ∈ b.columns) (hprimary : b.primaryName = .ok c.name) {calls : List Call}
    (hidentifies : ∀ call ∈ calls, Identifies r c.type call) :
    b.Accounts r c (b.ledger r opened records calls) (Call.run (·.onRows b) opened calls) := by
  induction calls generalizing opened records with
  | nil => exact haccounts
  | cons call rest ih =>
    have hnext := haccounts.call h hc hprimary (hidentifies call List.mem_cons_self)
    exact ih hnext fun later hlater => hidentifies later (List.mem_cons_of_mem call hlater)

/-- What a repository does with the identifier of a record that is stored in one row. -/
structure Addressed (b : TableBinding) (r : Repository) (c : Column) (opened : Repository × Database) (t : Table)
    (entry : String × Record) (row : Row) : Prop where
  stores : b.Stores entry.2 row
  selected : t.select [⟨c.name, .text entry.1⟩] = [row]
  find : ∀ reader : Repository, reader.findRow b opened.2 (.str entry.1) =
    reader.requireHydrator >>= fun _ => recordOf t row b.columns >>= reader.hydrate
  /-- the row gives the record back, if its values are of the kinds of the columns -/
  returns : b.Takes entry.2 → ∃ found, recordOf t row b.columns = .ok found ∧
    found.map (·.1) = b.columns.map (·.1) ∧ ∀ column ∈ b.columns, Returns entry.2 column (found.field column.1)
  insert : ∀ (call : Call) record, call.operation = .insert →
    (runOn (prepare call.operation) (call.writing (r, ()))).1 = .ok (entry.1, record) →
    call.on (·.onRows b) opened = (.error (.alreadyExists r.entity entry.1), opened)
  /-- the row is replaced and no other, or there is something against the new one -/
  update : ∀ (call : Call) record, call.operation = .update →
    (runOn (prepare call.operation) (call.writing (r, ()))).1 = .ok (entry.1, record) →
    (∃ row', b.Stores record row' ∧ (call.on (·.onRows b) opened).2.2 =
      opened.2.setTable { t with rows := Table.place (t.otherRows row) row' }) ∨
    ∃ e, call.on (·.onRows b) opened = (.error e, opened) ∧ e.IsRefusal
  delete : ∀ (call : Call) record, call.operation = .delete →
    (runOn (prepare call.operation) (call.writing (r, ()))).1 = .ok (entry.1, record) →
    (call.on (·.onRows b) opened).2.2 = opened.2.setTable { t with rows := t.otherRows row }

/-- What a repository does with an identifier under which nothing is found. -/
structure Missed (b : TableBinding) (r : Repository) (opened : Repository × Database) (id : String) : Prop where
  find : ∀ reader : Repository, reader.findRow b opened.2 (.str id) = reader.requireHydrator >>= fun _ => .ok .null
  insert : ∀ record e, b.adapter.change .insert r id record opened.2 = .error e → e.IsRefusal
  update : ∀ (call : Call) record, call.operation = .update →
    (runOn (prepare call.operation) (call.writing (r, ()))).1 = .ok (id, record) →
    ∃ e, call.on (·.onRows b) opened = (.error e, opened) ∧ (e = .notFound r.entity id .update ∨ ∃ f, e = .failure f)
  delete : ∀ (call : Call) record, call.operation = .delete →
    (runOn (prepare call.operation) (call.writing (r, ()))).1 = .ok (id, record) →
    call.on (·.onRows b) opened = (.error (.notFound r.entity id .deletion), opened)

theorem findRow_eq (hholds : b.Holds db t) (hprimary : b.primaryName = .ok c.name) (reader : Repository) (text : String) :
    reader.findRow b db (.str text) = reader.requireHydrator >>= fun _ =>
      b.recordsOf t (t.select [⟨c.name, .text text⟩]) >>= fun records =>
        match records with
        | record :: _ => reader.hydrate record
        | [] => .ok .null := by
  have hsearch : b.search db [(c.name, .str text)] = b.recordsOf t (t.select [⟨c.name, .text text⟩]) := by
    rw [search,table_found hholds.found]
    rfl
  rw [Repository.findRow,hprimary]
  simp only [ok_bind]
  change (reader.requireHydrator >>= fun _ => b.search db [(c.name, .str text)] >>= _) = _
  rw [hsearch]
  rfl

theorem findRow_absent (hholds : b.Holds db t) (hprimary : b.primaryName = .ok c.name) {text : String}
    (hnone : t.select [⟨c.name, .text text⟩] = []) (reader : Repository) :
    reader.findRow b db (.str text) = reader.requireHydrator >>= fun _ => .ok .null := by
  rw [findRow_eq hholds hprimary,hnone]
  rfl

/-- What a call that was prepared leaves, by what became of the change of the store. -/
theorem on_change (hrepository : ∃ published, opened.1 = { r with published }) {call : Call}
    (hprepare : (runOn (prepare call.operation) (call.writing (r, ()))).1 = .ok (id, record)) :
    match b.adapter.change call.operation r id record opened.2 with
    | .error e => call.on (·.onRows b) opened = (.error e, opened)
    | .ok db => (call.on (·.onRows b) opened).2.2 = db := by
  rcases opened with ⟨_,db⟩
  obtain ⟨published,rfl⟩ := hrepository
  have hdid := b.did r call published db
  generalize call.on (·.onRows b) ({ r with published }, db) = left at hdid
  cases hdid with
  | unprepared hnone => cases hnone.symm.trans hprepare
  | refused hprepare' hchange =>
    cases hprepare'.symm.trans hprepare
    dsimp only at hchange ⊢
    rw [hchange]
  | changed hprepare' hchange =>
    cases hprepare'.symm.trans hprepare
    dsimp only at hchange ⊢
    rw [hchange]

theorem Accounts.entered_of_success (haccounts : b.Accounts r c records opened) {call : Call}
    (hok : (call.on (·.onRows b) opened).1 = .ok ()) :
    ∃ id record, (runOn (prepare call.operation) (call.writing (r, ()))).1 = .ok (id, record) ∧
      b.entered r opened.2 records call = call.operation.enter id record records := by
  rcases opened with ⟨_,db⟩
  obtain ⟨⟨published,rfl⟩,_⟩ := haccounts
  have hdid := b.did r call published db
  generalize call.on (·.onRows b) ({ r with published }, db) = left at hdid hok
  cases hdid with
  | unprepared | refused => cases hok
  | @changed id record _ _ _ hprepare hchange =>
    refine ⟨id,record,hprepare,?_⟩
    rw [entered,hprepare]
    dsimp only at hchange ⊢
    rw [hchange]

section Placed

variable {before after : Records} {old : Record} {before' after' : List Row}

theorem Placed.inserting (hat : b.Placed key c records t id before after old before' after' row)
    (hrepository : ∃ published, opened.1 = { r with published }) (hholds : b.Holds opened.2 t)
    (hprimary : b.primaryName = .ok c.name) {call : Call} (hop : call.operation = .insert)
    (hprepare : (runOn (prepare call.operation) (call.writing (r, ()))).1 = .ok (id, record)) :
    call.on (·.onRows b) opened = (.error (.alreadyExists r.entity id), opened) := by
  have hon := on_change (b := b) hrepository hprepare
  have hchange : b.adapter.change .insert r id record opened.2 = .error (.alreadyExists r.entity id) := by
    change b.insert _ _ _ _ = _
    rw [insert_eq hholds.found,hprimary,ok_bind,List.isEmpty_eq_false_iff.mpr hat.there]
    rfl
  rw [hop,hchange] at hon
  exact hon

theorem Placed.updating (hat : b.Placed key c records t id before after old before' after' row)
    (hrepository : ∃ published, opened.1 = { r with published }) (h : Bound s d b) (hholds : b.Holds opened.2 t)
    (hwide : ∀ row ∈ t.rows, row.cells.length = b.columns.length) (hprimary : b.primaryName = .ok c.name) {call : Call}
    (hop : call.operation = .update)
    (hprepare : (runOn (prepare call.operation) (call.writing (r, ()))).1 = .ok (id, record)) :
    (∃ row', b.Stores record row' ∧ (call.on (·.onRows b) opened).2.2 =
      opened.2.setTable { t with rows := Table.place (t.otherRows row) row' }) ∨
    ∃ e, call.on (·.onRows b) opened = (.error e, opened) ∧ e.IsRefusal := by
  have hon := on_change (b := b) hrepository hprepare
  rw [hop] at hon
  cases hchange : b.adapter.change .update r id record opened.2 with
  | ok db =>
    rw [hchange] at hon
    obtain ⟨rows,halters,hdb,_⟩ := hholds.alters h hwide hchange
    cases halters with
    | update hname _ _ hone =>
      cases hprimary.symm.trans hname
      obtain ⟨row',hstores,rfl⟩ := hone row hat.selected
      exact .inl ⟨row',hstores,hon.trans hdb⟩
  | error e =>
    rw [hchange] at hon
    refine .inr ⟨e,hon,?_⟩
    change b.update _ _ _ _ = _ at hchange
    rw [update_eq hholds.found,hprimary,ok_bind,List.isEmpty_eq_false_iff.mpr hat.there] at hchange
    rcases bind_eq_error.mp hchange with hnamed | ⟨named,_,hsettled⟩
    · exact .inl (h.named_error hholds.columns hnamed)
    · exact settled_error (fun _ => Table.replaceAll_error) hsettled

theorem Placed.deleting (hat : b.Placed key c records t id before after old before' after' row)
    (hrepository : ∃ published, opened.1 = { r with published }) (hholds : b.Holds opened.2 t)
    (hprimary : b.primaryName = .ok c.name) {call : Call} (hop : call.operation = .delete)
    (hprepare : (runOn (prepare call.operation) (call.writing (r, ()))).1 = .ok (id, record)) :
    (call.on (·.onRows b) opened).2.2 = opened.2.setTable { t with rows := t.otherRows row } := by
  have hon := on_change (b := b) hrepository hprepare
  have hchange : b.adapter.change .delete r id record opened.2 =
      .ok (opened.2.setTable { t with rows := t.otherRows row }) := by
    change b.delete _ _ _ = _
    rw [delete_eq hholds.found,hprimary,ok_bind,List.isEmpty_eq_false_iff.mpr hat.there,hat.selected,← remove_eq]
    rfl
  rw [hop,hchange] at hon
  exact hon

theorem Placed.addressed (hat : b.Placed key c records t id before after old before' after' row)
    (hrepository : ∃ published, opened.1 = { r with published }) (h : Bound s d b) (hholds : b.Holds opened.2 t)
    (hwide : ∀ row ∈ t.rows, row.cells.length = b.columns.length) (hprimary : b.primaryName = .ok c.name) :
    b.Addressed r c opened t (id, old) row where
  stores := hat.enters.stores
  selected := hat.selected
  find := by
    intro reader
    rw [findRow_eq hholds hprimary,hat.selected]
    refine congrArg _ (funext fun _ => ?_)
    rw [recordsOf,List.mapM_cons,List.mapM_nil]
    cases recordOf t row b.columns <;> rfl
  returns htakes := (hat.enters.stores.gives htakes).read h hholds.columns
  insert _ _ := hat.inserting hrepository hholds hprimary
  update _ _ := hat.updating hrepository h hholds hwide hprimary
  delete _ _ := hat.deleting hrepository hholds hprimary

end Placed

theorem missed (hrepository : ∃ published, opened.1 = { r with published }) (h : Bound s d b)
    (hholds : b.Holds opened.2 t) (hprimary : b.primaryName = .ok c.name) (hnone : t.select [⟨c.name, .text id⟩] = []) :
    b.Missed r opened id := by
  refine ⟨findRow_absent hholds hprimary hnone,fun record e hchange => ?_,fun call record hop hprepare => ?_,
    fun call record hop hprepare => ?_⟩
  · change b.insert _ _ _ _ = _ at hchange
    rw [insert_eq hholds.found,hprimary,ok_bind,hnone] at hchange
    rcases bind_eq_error.mp hchange with hnamed | ⟨named,_,hsettled⟩
    · exact .inl (h.named_error hholds.columns hnamed)
    · exact settled_error (fun _ => Table.insert_error) hsettled
  · have hon := on_change (b := b) hrepository hprepare
    have hchange : ∃ e, b.adapter.change .update r id record opened.2 = .error e ∧
        (e = .notFound r.entity id .update ∨ ∃ f, e = .failure f) := by
      change ∃ e, b.update _ _ _ _ = _ ∧ _
      rw [update_eq hholds.found,hprimary,ok_bind,hnone]
      cases hnamed : b.named t record with
      | error e => exact ⟨e,rfl,.inr (h.named_error hholds.columns hnamed)⟩
      | ok named => exact ⟨_,rfl,.inl rfl⟩
    obtain ⟨e,hchange,he⟩ := hchange
    rw [hop,hchange] at hon
    exact ⟨e,hon,he⟩
  · have hon := on_change (b := b) hrepository hprepare
    have hchange : b.adapter.change .delete r id record opened.2 = .error (.notFound r.entity id .deletion) := by
      change b.delete _ _ _ = _
      rw [delete_eq hholds.found,hprimary,ok_bind,hnone]
      rfl
    rw [hop,hchange] at hon
    exact hon

/-- Over every series of calls whose instances have keys of the kind of the column for identifiers, a table holds one
row for each stored record, and a text finds those whose keys it addresses. Where the column finds its keys, each record
is under its own identifier: it is found there, it cannot be inserted again, and its row alone is replaced or taken away.
In columns of other kinds nothing is ever found under the identifier of an instance. -/
theorem rows_addressed {registry : Registry} {cls : Class Value} {schema : Relational} {db₀ : Database}
    {calls : List Call} {reached : Repository × Database} (hd : registry.descriptor (.cls cls) = .ok r.descriptor)
    (hidentifier : r.descriptor.identifier? = some r.identifier) (hscalar : r.identifier.isRelationship = false)
    (hschema : (Relational.compile registry (.ok s) (.cls cls) none 0).result = .ok schema)
    (hb : ofSchema r.descriptor schema = .ok b) (hcreate : b.definition.create db₀ = .ok db)
    (hnew : db₀.table? b.definition.name = none) (hc : (r.identifier.key, c) ∈ b.columns)
    (hidentifies : ∀ call ∈ calls, Identifies r c.type call)
    (hreached : reached = Call.run (·.onRows b) (r, db) calls) (hrecords : records = b.ledger r (r, db) [] calls) :
    ∃ t rows, reached.2.table? b.schema.name = some t ∧ rows.Perm t.rows ∧
      List.Forall₂ (fun entry row => b.Stores entry.2 row ∧ (entry.2.field r.identifier.key).display = entry.1 ∧
        ∀ text, t.meets row ⟨c.name, .text text⟩ = c.type.addresses (entry.2.field r.identifier.key) text) records rows ∧
      (∀ call : Call, (call.on (·.onRows b) reached).1 = .ok () → ∃ id record,
        (runOn (prepare call.operation) (call.writing (r, ()))).1 = .ok (id, record) ∧
          b.entered r reached.2 records call = call.operation.enter id record records) ∧
      (c.type.findsKeys = true → (records.map (·.1)).Nodup ∧
        ∀ entry ∈ records, ∃ row, b.Addressed r c reached t entry row) ∧
      (c.type.findsKeys = false → ∀ v, c.type.Keys v → b.Missed r reached v.display) ∧
      (∀ text, (∀ entry ∈ records, c.type.addresses (entry.2.field r.identifier.key) text = false) →
        ∀ reader : Repository, reader.findRow b reached.2 (.str text) = reader.requireHydrator >>= fun _ => .ok .null) ∧
      (c.type = .text ∨ c.type = .date → ∀ entry ∈ records, ∀ text,
        c.type.addresses (entry.2.field r.identifier.key) text = (entry.1 == text)) := by
  have h := bound_of_created hd (compile_registered hd hschema) hb hcreate hnew
  obtain ⟨c',hc',_,_,hprimary⟩ := h.exists_primary (List.mem_of_find?_eq_some hidentifier)
    (List.find?_some hidentifier) hscalar
  obtain rfl : c' = c := by
    have hlookup := lookup_of_nodup h.columns_keys_nodup hc'
    rw [lookup_of_nodup h.columns_keys_nodup hc] at hlookup
    exact (Option.some.inj hlookup).symm
  have haccounts : b.Accounts r c' records reached := by
    rw [hreached,hrecords]
    refine Accounts.run ⟨⟨r.published,rfl⟩,_,[],holds_created hcreate hnew,?_⟩ h hc hprimary hidentifies
    exact ⟨.nil,.nil,fun _ => List.nodup_nil⟩
  obtain ⟨hrepository,t,rows,hholds,htallies⟩ := id haccounts
  refine ⟨t,rows,hholds.found,htallies.perm,?_,fun call => haccounts.entered_of_success,fun hfinds => ?_,
    fun hfinds v hv => ?_,fun text hnone => ?_,fun htype entry hentry text => ?_⟩
  · exact htallies.enters.imp fun entry row henters =>
      ⟨henters.stores,henters.display,henters.meets h hholds.columns hc⟩
  · refine ⟨htallies.ids hfinds,fun ⟨id,record⟩ hentry => ?_⟩
    obtain ⟨before,after,old,before',after',row,hat⟩ := htallies.placed h hholds hc hfinds
      (Records.contains_iff.mpr ⟨(id, record),hentry,rfl⟩)
    obtain rfl : record = old := by
      rw [hat.records] at hentry
      rcases List.mem_cons.mp (List.perm_middle.mem_iff.mp hentry) with heq | hentry
      · exact (Prod.mk.inj heq).2
      · exact absurd rfl (hat.apart (id, record) hentry)
    exact ⟨row,hat.addressed hrepository h hholds htallies.wide hprimary⟩
  · refine missed hrepository h hholds hprimary ?_
    by_contra hthere
    rw [(htallies.there h hholds.columns hc hv hthere).1] at hfinds
    cases hfinds
  · exact findRow_absent hholds hprimary (htallies.absent h hholds.columns hc hnone)
  · obtain ⟨row,_,henters⟩ := exists_right_of_forall₂ htallies.enters hentry
    have hkeyed := henters.keyed
    rw [← henters.display]
    rcases htype with htype | htype <;> rw [htype] at hkeyed ⊢ <;>
      cases hfield : entry.2.field r.identifier.key <;> rw [hfield] at hkeyed <;> first | exact hkeyed.elim | rfl

/-- A slot, which has nothing but a key. -/
def slot : Class Value := ⟨.defined "Slot" 0 [.builtin .object], none⟩

/-- A repository of slots with keys of some type. -/
def slots (type : Builtin) : Except Error (Repository × TableBinding × Database) := do
  let registry ← ({} : Registry).registerProperty (.cls slot) (.str "key")
    [("type", .type (.builtin type)), ("is_identifier", .bool true)]
  let d ← registry.descriptor (.cls slot)
  let schema ← (Relational.compile registry (.ok Settings.defaults) (.cls slot) none 0).result
  let b ← ofSchema d schema
  let r ← Repository.ofDescriptor d none
  let db ← b.definition.create []
  return (r, b, db)

/-- A call for the slot with some key. -/
def slotting (operation : Operation) (key : Value) : Call where
  operation
  entity := .object ⟨0, slot, [("key", key)], [], []⟩
  world := { clock := default }

/-- Whether what a call prepares has the number whose text is the identifier, and the columns are of the kind for it. -/
def preparesNumber (r : Repository) (call : Call) : Bool :=
  match (runOn (prepare call.operation) (call.writing (r, ()))).1 with
  | .ok (id, record) =>
    match record.field r.identifier.key with
    | .int n => Cell.fits n && toString n == id
    | _ => false
  | .error _ => true

theorem identifies_of_preparesNumber {call : Call} (h : preparesNumber r call = true) : Identifies r .whole call := by
  intro id record hprepare
  rw [preparesNumber,hprepare] at h
  dsimp only at h
  cases hfield : record.field r.identifier.key with
  | int n =>
    rw [hfield] at h
    obtain ⟨hfits,hid⟩ := Bool.and_eq_true_iff.mp h
    exact ⟨.int n,hfits,eq_of_beq hid,fun _ => rfl⟩
  | _ => rw [hfield] at h; cases h

/-- The slot with the number five is under the text of the number. -/
theorem rows_addressed_slots : ∃ r b db c t record row, slots .integer = .ok (r, b, db) ∧
    (r.identifier.key, c) ∈ b.columns ∧ c.type = .whole ∧
    b.ledger r (r, db) [] [slotting .insert (.int 5)] = [("5", record)] ∧
    b.Addressed r c (Call.run (·.onRows b) (r, db) [slotting .insert (.int 5)]) t ("5", record) row := by
  have hok : ((slots .integer).toOption.any fun opened =>
      preparesNumber opened.1 (slotting .insert (.int 5)) &&
      (opened.2.1.columns.any fun column => column.1 == opened.1.identifier.key && column.2.type == .whole) &&
      !opened.1.identifier.isRelationship &&
      (opened.2.1.ledger opened.1 (opened.1, opened.2.2) [] [slotting .insert (.int 5)]).map (·.1) == ["5"]) = true := by
    decide +kernel
  obtain ⟨⟨r,b,db⟩,hslots,h⟩ := exists_ok_of_any hok
  simp only [Bool.and_eq_true,Bool.not_eq_true'] at h
  obtain ⟨⟨⟨hnumber,hcolumn⟩,hscalar⟩,hledger⟩ := h
  obtain ⟨⟨key,c⟩,hc,hwhole⟩ := List.any_eq_true.mp hcolumn
  obtain ⟨hkey,hwhole⟩ := Bool.and_eq_true_iff.mp hwhole
  cases eq_of_beq hkey
  have htype : c.type = .whole := eq_of_beq hwhole
  obtain ⟨⟨_,record⟩,hrecords,rfl⟩ := List.map_eq_singleton_iff.mp (eq_of_beq hledger)
  obtain ⟨registry,_,h⟩ := bind_eq_ok.mp hslots
  obtain ⟨d,schema,b,_,db,hd,hschema,hb,hidentifier,hcreate,h⟩ := exists_created h
  cases pure_eq_ok.mp h
  obtain ⟨t,_,_,_,_,_,hfound,_⟩ := rows_addressed hd hidentifier hscalar hschema hb hcreate rfl hc
    (fun call hcall => by
      rw [htype,List.mem_singleton.mp hcall]
      exact identifies_of_preparesNumber hnumber) rfl rfl
  obtain ⟨row,haddressed⟩ := (hfound (by rw [htype]; rfl)).2 ("5", record)
    (by rw [hrecords]; exact List.mem_singleton_self _)
  exact ⟨_,b,db,c,t,record,row,hslots,hc,htype,hrecords,haddressed⟩

/-- Whether nothing was found, and nothing to replace under some identifier. -/
def isUnplaced (id : String) : Except Error Value → Except Error Unit → Bool
  | .ok .null, .error (.notFound _ id' .update) => id' == id
  | _, _ => false

/-- The slot with a truth value is stored, but under its identifier nothing is found, and nothing can be replaced. -/
theorem rows_addressed_truth : ∃ r b db entity, slots .boolean = .ok (r, b, db) ∧
    ((slotting .insert (.bool true)).on (·.onRows b) (r, db)).1 = .ok () ∧
    ({ r with hydrator := some .whole } : Repository).findRow b
      ((slotting .insert (.bool true)).on (·.onRows b) (r, db)).2.2 (.str "True") = .ok .null ∧
    ((slotting .update (.bool true)).on (·.onRows b) ((slotting .insert (.bool true)).on (·.onRows b) (r, db)).2).1 =
      .error (.notFound entity "True" .update) := by
  have hok : ((slots .boolean).toOption.any fun opened =>
      ((slotting .insert (.bool true)).on (·.onRows opened.2.1) (opened.1, opened.2.2)).1.isOk &&
      isUnplaced "True"
        (({ opened.1 with hydrator := some .whole } : Repository).findRow opened.2.1
          ((slotting .insert (.bool true)).on (·.onRows opened.2.1) (opened.1, opened.2.2)).2.2 (.str "True"))
        ((slotting .update (.bool true)).on (·.onRows opened.2.1)
          ((slotting .insert (.bool true)).on (·.onRows opened.2.1) (opened.1, opened.2.2)).2).1) = true := by
    decide +kernel
  obtain ⟨⟨r,b,db⟩,hslots,h⟩ := exists_ok_of_any hok
  obtain ⟨haccepted,hunplaced⟩ := Bool.and_eq_true_iff.mp h
  obtain ⟨_,haccepted⟩ := exists_ok_of_isOk haccepted
  unfold isUnplaced at hunplaced
  split at hunplaced
  · rename_i entity id hfound hreplaced
    rw [eq_of_beq hunplaced] at hreplaced
    exact ⟨r,b,db,entity,hslots,haccepted,hfound,hreplaced⟩
  · cases hunplaced

end TableBinding

end Trischema
