import Trischema.Proofs.Repository.Returning
import Trischema.Proofs.Table.Searching

/-!
What a search of a table finds. Its conditions are checked row by row, so that it answers with the instances whose values
are equal to all that is asked for, but for those about which a column misjudges; memory answers with the same instances
where no texts are asked for.
-/

namespace Trischema

/-- Values that are asked for under the keys of properties. -/
abbrev Query := List (String × Value)

/-- Whether a record has all values that are asked for. -/
def Record.meets (record : Record) (query : Query) : Bool := query.all fun asked => (record.field asked.1).same asked.2

namespace TableBinding

open Relational Write Adapter

/-- Whether stored properties are asked for what their columns are. -/
def Asks (b : TableBinding) (query : Query) : Prop :=
  ∀ asked ∈ query, ∃ c, (asked.1, c) ∈ b.columns ∧ c.type.Asks asked.2

/-- Whether all that is asked for can be bound. -/
def binds (b : TableBinding) (query : Query) : Bool :=
  query.all fun asked => (b.columns.lookup asked.1).any fun c => c.type.binds asked.2

/-- Whether a column misjudges a record that was stored and is read as another. -/
def misjudges (b : TableBinding) (kept : Record × Record) (asked : String × Value) : Bool :=
  (b.columns.lookup asked.1).any fun c =>
    c.type.misjudges (kept.1.field asked.1) (kept.2.field asked.1) asked.2

/-- Whether the row of a record that was stored, and is read as another, is found. -/
def finds (b : TableBinding) (query : Query) (kept : Record × Record) : Bool :=
  query.all fun asked => (kept.2.field asked.1).same asked.2 != b.misjudges kept asked

/-- Whether the column of a property gives back what a record has there. -/
def givesBack (b : TableBinding) (record : Record) (key : String) : Bool :=
  (b.columns.lookup key).any fun c => c.type.returns (record.field key)

/-- Whether a row keeps a record of values of the kinds of the columns, and is read as another. -/
structure Shows (b : TableBinding) (t : Table) (kept : Record × Record) (row : Row) : Prop where
  takes : b.Takes kept.1
  stores : b.Stores kept.1 row
  read : recordOf t row b.columns = .ok kept.2

variable {s : Settings} {d : Descriptor} {b : TableBinding} {db db' : Database} {t : Table} {record : Record}
  {row : Row} {kept : Record × Record} {query : Query} {r : Repository}

/-- A row of values of the kinds of the columns is read as something. -/
theorem Stores.shows (h : Bound s d b) (ht : t.columns = b.definition.empty.columns) (htakes : b.Takes record)
    (hstores : b.Stores record row) : ∃ found, b.Shows t (record, found) row := by
  obtain ⟨found,hfound,_⟩ := (hstores.gives htakes).read h ht
  exact ⟨found,htakes,hstores,hfound⟩

/-- What a row is read as in a column is the value of the cell that the column keeps, which is compared in searches. -/
theorem Shows.field (hshows : b.Shows t kept row) (h : Bound s d b) (ht : t.columns = b.definition.empty.columns)
    {entry : String × Column} (hentry : entry ∈ b.columns) : ∃ cell, Written kept.1 entry cell ∧
      entry.2.decode (cell.stored entry.2.type.affinity).toValue = .ok (kept.2.field entry.1) ∧
      ∀ c, t.meets row ⟨entry.2.name, c⟩ = (cell.stored entry.2.type.affinity).holds entry.2.type.affinity c := by
  obtain ⟨i,hi,hfills,hmeets⟩ := hshows.stores.at h ht hentry
  obtain ⟨cell,hwritten,hcell⟩ := hfills.stored hshows.takes hentry
  have hread := recordOf_eq_ok.mp hshows.read
  obtain ⟨f,hf,j,hj,hkey,hdecode⟩ := exists_right_of_forall₂ hread hentry
  cases hi.symm.trans hj
  have hkeys : kept.2.map (·.1) = b.columns.map (·.1) :=
    (map_eq_of_forall₂ hread fun _ _ ⟨_,_,hkey,_⟩ => hkey.symm).symm
  refine ⟨cell,hwritten,?_,fun c => by rw [hmeets,hcell]⟩
  rw [Record.field,← hkey,lookup_of_nodup (by rw [hkeys]; exact h.columns_keys_nodup) hf,← hcell]
  exact hdecode

/-- Whether a condition on rows is that on the column of a property that is asked for. -/
def Tests (b : TableBinding) (asked : String × Value) (cond : Table.Condition) : Prop :=
  ∃ c bound, (asked.1, c) ∈ b.columns ∧ c.type.Asks asked.2 ∧ cond.name = c.name ∧ c.encode asked.2 = .ok bound ∧
    Cell.ofValue bound = .ok cond.cell

theorem Shows.tests (hshows : b.Shows t kept row) (h : Bound s d b) (ht : t.columns = b.definition.empty.columns)
    {asked : String × Value} {cond : Table.Condition} (htests : b.Tests asked cond) :
    t.meets row cond = ((kept.2.field asked.1).same asked.2 != b.misjudges kept asked) := by
  obtain ⟨c,bound',hc,hasks,hname,hbound',hcell'⟩ := htests
  obtain ⟨cell,⟨bound,hbound,hcell⟩,hread,hmeets⟩ := hshows.field h ht hc
  have hcond : cond = ⟨c.name, cond.cell⟩ := by rw [← hname]
  rw [misjudges,lookup_of_nodup h.columns_keys_nodup hc,hcond,hmeets]
  exact Column.judges (hshows.takes.values _ hc) hbound hcell hread hasks hbound' hcell'

/-- A row meets the conditions of a query where it is found. -/
theorem Shows.finds (hshows : b.Shows t kept row) (h : Bound s d b) (ht : t.columns = b.definition.empty.columns)
    {conds : List Table.Condition} (hconds : List.Forall₂ b.Tests query conds) :
    conds.all (t.meets row) = b.finds query kept := by
  unfold TableBinding.finds
  induction hconds with
  | nil => rfl
  | cons htests _ ih => rw [List.all_cons,List.all_cons,ih,hshows.tests h ht htests]

/-- The conditions that a binding makes of a query, with their cells. -/
def conditionsOf (conds : List (String × Value)) (cells : List Cell) : List Table.Condition :=
  (conds.zip cells).map fun ((name, _), cell) => ⟨name, cell⟩

/-- A query makes one condition for each of its keys, unless it asks for a whole number that does not fit. -/
theorem conditions_asked (h : Bound s d b) (entity : String) (hasks : b.Asks query) :
    ∃ conds, b.conditions entity (query.map fun (key, v) => (.str key, v)) = .ok conds ∧
      (b.binds query = true → ∃ cells, Cell.ofValues (conds.map (·.2)) = .ok cells ∧
        List.Forall₂ b.Tests query (conditionsOf conds cells)) ∧
      (b.binds query = false → Cell.ofValues (conds.map (·.2)) = .error (.failure .overflow)) := by
  induction query with
  | nil => exact ⟨[],rfl,fun _ => ⟨[],rfl,.nil⟩,fun h => by cases h⟩
  | cons asked rest ih =>
    obtain ⟨conds,hconds,hcells,herror⟩ := ih fun e he => hasks e (List.mem_cons_of_mem _ he)
    obtain ⟨c,hc,hasked⟩ := hasks asked List.mem_cons_self
    obtain ⟨bound,hbound,hcell,hoverflow⟩ := Column.encode_asked hasked
    have hlookup := lookup_of_nodup h.columns_keys_nodup hc
    have hbinds : b.binds (asked :: rest) = (c.type.binds asked.2 && b.binds rest) := by
      rw [binds,binds,List.all_cons,hlookup]
      rfl
    refine ⟨(c.name, bound) :: conds,?_,fun hall => ?_,fun hnot => ?_⟩
    · rw [List.map_cons,conditions]
      simp only [Value.text?,Option.bind_some,hlookup,hbound,hconds]
      rfl
    · rw [hbinds,Bool.and_eq_true] at hall
      obtain ⟨cell,hcell⟩ := hcell hall.1
      obtain ⟨cells,hcells,htests⟩ := hcells hall.2
      refine ⟨cell :: cells,?_,.cons ⟨c,bound,hc,hasked,rfl,hbound,hcell⟩ htests⟩
      rw [List.map_cons,Cell.ofValues,hcell,hcells]
      rfl
    · rw [List.map_cons,Cell.ofValues]
      cases hfirst : c.type.binds asked.2 with
      | false =>
        rw [hoverflow hfirst]
        rfl
      | true =>
        obtain ⟨cell,hcell⟩ := hcell hfirst
        rw [hbinds,hfirst,Bool.true_and] at hnot
        rw [hcell,herror hnot]
        rfl

/-- A table whose rows keep and show records answers to a query with those that it finds. -/
theorem search_shown (h : Bound s d b) (hholds : b.Holds db t) {shown : List (Record × Record)}
    (hshown : List.Forall₂ (b.Shows t) shown t.rows) {conds : List (String × Value)} {cells : List Cell}
    (hcells : Cell.ofValues (conds.map (·.2)) = .ok cells) (htests : List.Forall₂ b.Tests query (conditionsOf conds cells)) :
    b.search db conds = .ok ((shown.filter (b.finds query)).map (·.2)) := by
  rw [search,table_found hholds.found]
  simp only [pure_bind,hcells,ok_bind]
  have hrows : List.Forall₂ (b.Shows t) (shown.filter (b.finds query)) (t.select (conditionsOf conds cells)) := by
    refine List.rel_filter (fun kept row hshows => ?_) hshown
    change _ ↔ (conditionsOf conds cells).all (t.meets row) = true
    rw [hshows.finds h hholds.columns htests]
  exact mapM_eq_ok.mpr (List.forall₂_map_right_iff.mpr (hrows.flip.imp fun row kept hshows => hshows.read))

/-- Columns belong to properties of the class. -/
theorem Bound.known (h : Bound s d b) {key : String} {c : Column} (hc : (key, c) ∈ b.columns) :
    (d.get? key).isSome = true := by
  obtain ⟨p,hp,hkey,_⟩ := exists_left_of_forall₂ h.keeps hc
  rw [h.get?_eq_some.mpr ⟨(mem_storedProperties.mp hp).1,hkey.symm⟩]
  rfl

theorem queryEntries_asked (h : Bound s d b) (hr : r.descriptor = d) (hasks : b.Asks query) :
    r.queryEntries (.record query) = .ok (query.map fun (key, v) => (.str key, v)) := by
  change (if (List.filter _ ((query.map fun (key, v) => (Value.str key, v)).map (·.1))).isEmpty = true then _ else _) = _
  have hnone : (((query.map fun (key, v) => (Value.str key, v)).map (·.1)).filter fun key =>
      !(key.text?.any fun k => (r.descriptor.get? k).isSome)) = [] := by
    refine List.filter_eq_nil_iff.mpr fun key hkey => ?_
    rw [List.map_map] at hkey
    obtain ⟨asked,hasked,rfl⟩ := List.mem_map.mp hkey
    obtain ⟨c,hc,_⟩ := hasks asked hasked
    change ¬(!(r.descriptor.get? asked.1).isSome) = true
    rw [hr,h.known hc]
    exact Bool.false_ne_true
  rw [hnone]
  rfl

/-- Where a column gives a value back, what is read is equal to the same scalars that are no texts. -/
theorem Shows.same (hshows : b.Shows t kept row) (h : Bound s d b) (ht : t.columns = b.definition.empty.columns)
    {asked : String × Value} {c : Column} (hc : (asked.1, c) ∈ b.columns) (hasks : c.type.Asks asked.2)
    (htext : asked.2.text? = none) (hgives : b.givesBack kept.1 asked.1 = true) :
    (kept.1.field asked.1).same asked.2 = (kept.2.field asked.1).same asked.2 := by
  obtain ⟨found,hfound,_,hreturns⟩ := (hshows.stores.gives hshows.takes).read h ht
  cases hshows.read.symm.trans hfound
  rw [givesBack,lookup_of_nodup h.columns_keys_nodup hc] at hgives
  exact (Value.same_congr ((hreturns _ hc).trans hgives) (ColumnType.isScalar_of_asks hasks) htext).symm

/-- What a repository answers to a query over a table that shows records: it refuses whole numbers that do not fit, and
answers with the records that are found. Without misjudgements these are the records that have all values which are
asked for, and a store in memory of what was stored answers with the same ones where no texts are asked for and all
values come back. -/
structure Answers (b : TableBinding) (db : Database) (shown : List (Record × Record)) (reader : Repository)
    (query : Query) : Prop where
  refused : b.binds query = false → reader.searchRows b db (.record query) =
    reader.requireHydrator >>= fun _ => .error (.failure .overflow)
  found : b.binds query = true → ∃ found, found.Perm ((shown.filter (b.finds query)).map (·.2)) ∧
    reader.searchRows b db (.record query) = reader.requireHydrator >>= fun _ => reader.hydrateAll found
  equal : (∀ kept ∈ shown, ∀ asked ∈ query, b.misjudges kept asked = false) →
    shown.filter (b.finds query) = shown.filter fun kept => kept.2.meets query
  memory : (∀ asked ∈ query, asked.2.text? = none) →
    (∀ kept ∈ shown, ∀ asked ∈ query, b.givesBack kept.1 asked.1 = true) →
    ∀ records : Records, records.map (·.2) = shown.map (·.1) → reader.searchRecords records (.record query) =
      reader.requireHydrator >>= fun _ => reader.hydrateAll ((shown.filter fun kept => kept.2.meets query).map (·.1))

theorem answers (h : Bound s d b) (hholds : b.Holds db t) {shown : List (Record × Record)}
    (hshown : List.Forall₂ (b.Shows t) shown t.rows) (hr : r.descriptor = d) (hasks : b.Asks query) :
    b.Answers db shown r query := by
  have hentries := queryEntries_asked h hr hasks
  obtain ⟨conds,hconds,hcells,herror⟩ := conditions_asked h r.entity hasks
  have hsearch : r.searchRows b db (.record query) = r.requireHydrator >>= fun _ => b.search db conds >>= fun records =>
      r.hydrateAll records := by
    rw [Repository.searchRows,hentries]
    simp only [ok_bind,hconds]
  refine ⟨fun hnot => ?_,fun hall => ?_,fun hnone => List.filter_congr fun kept hkept => ?_,
    fun htexts hgives records hrecords => ?_⟩
  · rw [hsearch,search,table_found hholds.found]
    simp only [pure_bind,herror hnot]
    rfl
  · obtain ⟨cells,hcells,htests⟩ := hcells hall
    exact ⟨_,.refl _,by rw [hsearch,search_shown h hholds hshown hcells htests]; rfl⟩
  · refine Bool.eq_iff_iff.mpr ?_
    rw [finds,Record.meets,List.all_eq_true,List.all_eq_true]
    exact forall₂_congr fun asked hasked => by rw [hnone kept hkept asked hasked,Bool.bne_false]
  · have hmeets : ∀ kept ∈ shown, Records.meets kept.1 (query.map fun (key, v) => (.str key, v)) = kept.2.meets query := by
      intro kept hkept
      obtain ⟨row,_,hshows⟩ := exists_right_of_forall₂ hshown hkept
      rw [Records.meets,List.all_map,Record.meets,Bool.eq_iff_iff,List.all_eq_true,List.all_eq_true]
      refine forall₂_congr fun asked hasked => ?_
      obtain ⟨c,hc,hasks⟩ := hasks asked hasked
      rw [← hshows.same h hholds.columns hc hasks (htexts asked hasked) (hgives kept hkept asked hasked)]
      obtain ⟨key,q⟩ := asked
      have hnone : q.text? = none := htexts _ hasked
      have hfield : kept.1.field ((Value.str key).text?.getD "") = kept.1.field key := rfl
      dsimp only [Function.comp]
      rw [hnone,hfield]
      cases (kept.1.field key).text? <;> rfl
    have hfilter : (records.map (·.2)).filter (Records.meets · (query.map fun (key, v) => (.str key, v))) =
        (shown.filter fun kept => kept.2.meets query).map (·.1) := by
      rw [hrecords,List.filter_map]
      exact congrArg _ (List.filter_congr hmeets)
    rw [Repository.searchRecords,hentries]
    simp only [ok_bind,hfilter]

/-- Records of scalars are of the kinds of their columns, and the rows that keep them are read as such. -/
theorem Mirrors.shows {identifier : Property} (h : Tabular s d b identifier) (hholds : b.Holds db t)
    {entry : String × Record} (hmirrors : b.Mirrors d identifier entry row) :
    b.Shows t (entry.2, entry.2.settled) row := by
  have htakes {k : Scalar} {v : Value} (hv : Column.Holds k v) : (ColumnType.ofScalar k).Takes v := by
    rcases hv with rfl | hv
    · cases k <;> trivial
    · cases k <;> cases v <;> first | exact hv.elim | trivial | exact ⟨_,rfl⟩ | exact ⟨_,rfl,hv⟩
  refine ⟨⟨fun column hcolumn => ?_,fun column hcolumn hprimary => ?_⟩,?_,h.recordOf_eq hholds hmirrors.cells hmirrors.fits⟩
  · obtain ⟨k,htype,hkept,_⟩ := h.holds_entry hmirrors.fits hcolumn
    rw [htype]
    exact htakes hkept
  · obtain ⟨_,_,_,_,hrequired⟩ := h.holds_entry hmirrors.fits hcolumn
    exact hrequired (by rw [Column.isRequired,hprimary]; rfl)
  · rw [Stores,hmirrors.cells,cellsOf,List.forall₂_map_right_iff,List.forall₂_same]
    intro column hcolumn
    obtain ⟨k,htype,hkept,_⟩ := h.holds_entry hmirrors.fits hcolumn
    exact ⟨_,Column.encode_cell htype hkept,.inl (Column.stored_cell htype hkept).symm⟩

/-- Whatever values of the kinds of its columns are written to a created table, each of its rows keeps a record and is read
as another one, and a repository over it answers to queries by these: in full to those about which no column misjudges.
Memory keeps the same records after the same writes of instances of scalars. -/
theorem searches_answered {registry : Registry} {c : Class Value} {schema : Relational} {db₀ : Database}
    {calls : List Call} {reached : Repository × Database} (hd : registry.descriptor (.cls c) = .ok r.descriptor)
    (hidentifier : r.descriptor.identifier? = some r.identifier)
    (hschema : (Relational.compile registry (.ok s) (.cls c) none 0).result = .ok schema)
    (hb : ofSchema r.descriptor schema = .ok b) (hcreate : b.definition.create db₀ = .ok db)
    (hnew : db₀.table? b.definition.name = none) (hadmits : ∀ call ∈ calls, b.Admits r call)
    (hreached : reached = Call.run (·.onRows b) (r, db) calls) :
    ∃ t shown, reached.2.table? b.schema.name = some t ∧ List.Forall₂ (b.Shows t) shown t.rows ∧
      (r.descriptor.IsTabular → (∀ call ∈ calls, Suits r call) →
        (Call.run Operation.onRecords (r, []) calls).2.map (·.2) = shown.map (·.1)) ∧
      ∀ reader : Repository, reader.descriptor = r.descriptor →
        reader.allRows b reached.2 = (reader.requireHydrator >>= fun _ => reader.hydrateAll (shown.map (·.2))) ∧
        ∀ query, b.Asks query → b.Answers reached.2 shown reader query := by
  have h := bound_of_created hd (compile_registered hd hschema) hb hcreate hnew
  obtain ⟨t,shown,hholds,hshown,hmemory⟩ : ∃ t shown, b.Holds reached.2 t ∧ List.Forall₂ (b.Shows t) shown t.rows ∧
      (r.descriptor.IsTabular → (∀ call ∈ calls, Suits r call) →
        (Call.run Operation.onRecords (r, []) calls).2.map (·.2) = shown.map (·.1)) := by
    by_cases hsuits : r.descriptor.IsTabular ∧ ∀ call ∈ calls, Suits r call
    · have htabular : Tabular s r.descriptor b r.identifier :=
        ⟨h,hsuits.1,List.mem_of_find?_eq_some hidentifier,List.find?_some hidentifier⟩
      obtain ⟨t,hsim⟩ := ((inStep_created hcreate hnew).run htabular hsuits.2).simulates
      rw [← hreached] at hsim
      refine ⟨t,(Call.run Operation.onRecords (r, []) calls).2.map fun entry => (entry.2, entry.2.settled),hsim.holds,?_,
        fun _ _ => by rw [List.map_map]; rfl⟩
      rw [List.forall₂_map_left_iff]
      exact hsim.rows.imp fun entry row hmirrors => hmirrors.shows htabular hsim.holds
    · have hstocked : b.Stocked r b.Takes reached := by
        rw [hreached]
        refine (Stocked.created hcreate hnew).run h fun call hcall record ⟨hop,id,hprepare⟩ => ?_
        exact hadmits call hcall hop id record hprepare
      obtain ⟨_,t,hholds,hrows⟩ := hstocked
      have hall : ∀ row ∈ t.rows, ∃ kept, b.Shows t kept row := by
        intro row hrow
        obtain ⟨record,htakes,hstores⟩ := hrows row hrow
        obtain ⟨found,hshows⟩ := hstores.shows h hholds.columns htakes
        exact ⟨_,hshows⟩
      obtain ⟨shown,hshown⟩ := forall₂_of_forall hall
      exact ⟨t,shown,hholds,hshown.flip,fun htabular hcalls => absurd ⟨htabular,hcalls⟩ hsuits⟩
  refine ⟨t,shown,hholds.found,hshown,hmemory,fun reader hreader => ⟨?_,fun query hasks => answers h hholds hshown hreader hasks⟩⟩
  have hall : b.all reached.2 = .ok (shown.map (·.2)) := by
    have hsearch : b.search reached.2 [] = .ok ((shown.filter (b.finds [])).map (·.2)) :=
      search_shown h hholds hshown rfl .nil
    have heach : shown.filter (b.finds []) = shown := List.filter_eq_self.mpr fun _ _ => rfl
    rwa [heach] at hsearch
  rw [Repository.allRows,hall]
  rfl

/-- A meeting, which may have a time. -/
def meeting : Class Value := ⟨.defined "Meeting" 0 [.builtin .object], none⟩

/-- A new meeting at some time. -/
def meet (id : String) (time : Value) : Call where
  operation := .insert
  entity := .object ⟨0, meeting, [("id", .str id), ("at", time)], [], []⟩
  world := { clock := default }

/-- Noon of a leap day in universal time. -/
def noon : Moment := ⟨⟨2024, 2, 29⟩, 12, 0, 0, 0, some 0⟩

/-- The same noon by a clock that is one hour ahead. -/
def noonAhead : Moment := ⟨⟨2024, 2, 29⟩, 13, 0, 0, 0, some 3600000000⟩

/-- A meeting without a time, and one at noon. -/
def meets : List Call := [meet "1" .null, meet "2" (.moment noon)]

/-- Both repositories of meetings. -/
def meetings : Except Error (Repository × TableBinding × Database) := do
  let registry ← ({} : Registry).registerProperty (.cls meeting) (.str "at")
    [("type", .type (.builtin .moment)), ("optional", .bool true)]
  let d ← registry.descriptor (.cls meeting)
  let schema ← (Relational.compile registry (.ok Settings.defaults) (.cls meeting) none 0).result
  let b ← ofSchema d schema
  let r ← Repository.ofDescriptor d none
  let db ← b.definition.create []
  return (r, b, db)

/-- Whether a table is of texts and moments, and a call gives it texts and what is absent or noon. -/
def isOfNoons (r : Repository) (b : TableBinding) (call : Call) : Bool :=
  match (runOn (prepare call.operation) (call.writing (r, ()))).1 with
  | .ok (_, record) => b.columns.all fun entry =>
    match entry.2.type, record.field entry.1 with
    | .text, .str _ => true
    | .moment, .moment m => m == noon
    | .moment, .null => !entry.2.primary
    | _, _ => false
  | .error _ => true

theorem admits_noons {call : Call} (h : isOfNoons r b call = true) : b.Admits r call := by
  have hnoon : noon.IsValid := by
    refine ⟨⟨by decide,by decide,by decide⟩,by decide,by decide,by decide,by decide,fun o ho => ?_⟩
    cases ho
    decide
  intro _ id record hprepare
  rw [isOfNoons,hprepare] at h
  refine ⟨fun entry hentry => ?_,fun entry hentry hprimary hnull => ?_⟩
  all_goals have htaken := List.all_eq_true.mp h entry hentry
  · split at htaken
    · rename_i htype hfield
      rw [htype,hfield]
      trivial
    · rename_i m htype hfield
      rw [htype,hfield,beq_iff_eq.mp htaken]
      exact ⟨_,rfl,hnoon⟩
    · rename_i htype hfield
      rw [htype,hfield]
      trivial
    · cases htaken
  · rw [hnull,hprimary] at htaken
    cases htype : entry.2.type <;> (rw [htype] at htaken; cases htaken)

/-- The time of a meeting, asked for as another clock shows it. -/
theorem searches_answered_meetings : ∃ r b db shown, meetings = .ok (r, b, db) ∧
    ∀ reader : Repository, reader.descriptor = r.descriptor →
      b.Answers (Call.run (·.onRows b) (r, db) meets).2 shown reader [("at", .moment noonAhead)] := by
  have hok : (meetings.toOption.any fun opened => meets.all (isOfNoons opened.1 opened.2.1) &&
      (opened.2.1.columns.lookup "at").any (·.type == .moment)) = true := by decide +kernel
  obtain ⟨⟨r,b,db⟩,hmeetings,h⟩ := exists_ok_of_any hok
  obtain ⟨hnoons,htime⟩ := Bool.and_eq_true_iff.mp h
  obtain ⟨c,hc,htype⟩ := (Option.any_eq_true _ _).mp htime
  have hasks : b.Asks [("at", .moment noonAhead)] := by
    refine List.forall_mem_singleton.mpr ⟨c,mem_of_lookup hc,?_⟩
    rw [beq_iff_eq.mp htype]
    refine ⟨⟨by decide,by decide,by decide⟩,by decide,by decide,by decide,by decide,fun o ho => ?_⟩
    cases ho
    decide
  obtain ⟨registry,_,h⟩ := bind_eq_ok.mp hmeetings
  obtain ⟨d,schema,b,_,db,hd,hschema,hb,hidentifier,hcreate,h⟩ := exists_created h
  cases pure_eq_ok.mp h
  obtain ⟨_,shown,_,_,_,hanswers⟩ := searches_answered hd hidentifier hschema hb hcreate rfl
    (fun call hcall => admits_noons (List.all_eq_true.mp hnoons call hcall)) rfl
  exact ⟨_,_,_,shown,hmeetings,fun reader hreader => (hanswers reader hreader).2 _ hasks⟩

/-- Whether all meetings are read, and two searches find nothing in the table and one meeting each in memory. -/
def isSearchedApart : (all absent absentInMemory ahead aheadInMemory : Except Error (List Value)) → Bool
  | .ok [.str "1", .str "2"], .ok [], .ok [.str "1"], .ok [], .ok [.str "2"] => true
  | _, _, _, _, _ => false

/-- The meeting without a time is not found by the absence of a time, and the one at noon is not found by the same noon of
another clock. Memory finds both. -/
theorem searches_answered_apart : ∃ r b db reader, meetings = .ok (r, b, db) ∧
    reader = { r with hydrator := some (.project "id") } ∧
    reader.allRows b (Call.run (·.onRows b) (r, db) meets).2 = .ok [.str "1", .str "2"] ∧
    reader.searchRows b (Call.run (·.onRows b) (r, db) meets).2 (.record [("at", .null)]) = .ok [] ∧
    reader.searchRecords (Call.run Operation.onRecords (r, []) meets).2 (.record [("at", .null)]) = .ok [.str "1"] ∧
    reader.searchRows b (Call.run (·.onRows b) (r, db) meets).2 (.record [("at", .moment noonAhead)]) = .ok [] ∧
    reader.searchRecords (Call.run Operation.onRecords (r, []) meets).2 (.record [("at", .moment noonAhead)]) =
      .ok [.str "2"] := by
  have hok : (meetings.toOption.any fun opened =>
      let reader : Repository := { opened.1 with hydrator := some (.project "id") }
      let db := (Call.run (·.onRows opened.2.1) (opened.1, opened.2.2) meets).2
      let records := (Call.run Operation.onRecords (opened.1, []) meets).2
      isSearchedApart (reader.allRows opened.2.1 db) (reader.searchRows opened.2.1 db (.record [("at", .null)]))
        (reader.searchRecords records (.record [("at", .null)]))
        (reader.searchRows opened.2.1 db (.record [("at", .moment noonAhead)]))
        (reader.searchRecords records (.record [("at", .moment noonAhead)]))) = true := by
    decide +kernel
  obtain ⟨⟨r,b,db⟩,hmeetings,h⟩ := exists_ok_of_any hok
  dsimp only at h
  unfold isSearchedApart at h
  split at h
  · rename_i hall habsent habsent' hahead hahead'
    exact ⟨r,b,db,_,hmeetings,rfl,hall,habsent,habsent',hahead,hahead'⟩
  · cases h

end TableBinding

end Trischema
