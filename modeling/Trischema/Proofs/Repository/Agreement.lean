import Trischema.Proofs.Repository.Preparing
import Trischema.Proofs.Repository.Simulation

/-!
Memory and table agree: over every series of writes of instances of scalars, both stores keep the same
instances and answer alike. They differ where the name of a taken column spans several lines, which the table
does not report as a taken key, where a missing instance cannot be prepared for its update, which memory does
not come to see, and in distances from universal time of less than a second, which the table does not keep.
-/

namespace Trischema

namespace TableBinding

open Write Adapter

/-- Columns that are listed on one line are found behind the mark. -/
theorem listed?_line {rest listed : List Char} (hline : line? rest = some listed) (hlisted : listed ≠ []) :
    listed? (takenMark ++ rest) = some listed := by
  have hstarts : takenMark.isPrefixOf? (takenMark ++ rest) = some rest :=
    List.isPrefixOf?_eq_some_iff_append_eq.mpr rfl
  obtain ⟨first,others,rfl⟩ := List.exists_cons_of_ne_nil hlisted
  have hmark : takenMark ++ rest = 'U' :: (takenMark.tail ++ rest) := rfl
  rw [hmark] at hstarts ⊢
  rw [listed?,hstarts,Option.bind_some,hline]

theorem line?_of_one_line {cs : List Char} (h : '\n' ∉ cs) : line? cs = some cs := by
  have hcontains : cs.contains '\n' = false := by simpa using h
  rw [line?,hcontains]
  rfl

theorem taken_message (table : String) (names : List String) : (IntegrityFault.unique table names).message.toList =
    takenMark ++ (IntegrityFault.qualified table names).toList := by
  unfold takenMark
  exact String.toList_append

theorem point_mem_qualified (table : String) {names : List String} (hnames : names ≠ []) :
    '.' ∈ (IntegrityFault.qualified table names).toList := by
  obtain ⟨first,others,rfl⟩ := List.exists_cons_of_ne_nil hnames
  rw [IntegrityFault.qualified,List.map_cons,String.intercalate_cons_append,String.toList_append,String.toList_append]
  exact List.mem_append_left _ (List.mem_append_right _ (by decide))

/-- A taken key is reported as one where the names of its columns and of the table are on one line. -/
theorem report_taken (b : TableBinding) (entity table : String) {names : List String} (hnames : names ≠ [])
    (hline : '\n' ∉ (IntegrityFault.qualified table names).toList) :
    ∃ keys, b.report entity (.integrity (.unique table names)) = .collision (.fields entity keys) := by
  have hlisted := List.ne_nil_of_mem (point_mem_qualified table hnames)
  exact ⟨_,by rw [report,taken_message,listed?_line (line?_of_one_line hline) hlisted]⟩

/-- What is asked of the instance of a call: what is to be stored of it is of the declared kinds. -/
def Suits (r : Repository) (call : Call) : Prop :=
  call.operation ≠ .delete → ∀ id record, (runOn (prepare call.operation) (call.writing (r, ()))).1 = .ok (id, record) →
    ∀ p ∈ r.descriptor.properties, p.Admits (record.field p.key)

/-- Answers of the two stores to one call: they are the same, but for how a taken key is told, and for the
update of an instance that is missing and cannot be prepared. -/
inductive Agrees (b : TableBinding) (r : Repository) (call : Call) : Except Error Unit → Except Error Unit → Prop
  | same (answer : Except Error Unit) : Agrees b r call answer answer
  | taken (group : List (String × Value)) (keys : List String) :
    Agrees b r call (.error (.collision (.values r.entity group))) (.error (.collision (.fields r.entity keys)))
  | unread (group : List (String × Value)) {names : List String}
      (hcolumns : ∀ name ∈ names, ∃ entry ∈ b.columns, entry.2.name = name)
      (hlines : '\n' ∈ (IntegrityFault.qualified b.schema.name names).toList)
      (hlisted : listed? (IntegrityFault.unique b.schema.name names).message.toList = none) :
    Agrees b r call (.error (.collision (.values r.entity group))) (.error (.integrity (.unique b.schema.name names)))
  | missing (id : String) {e : Error} (hupdate : call.operation = .update)
      (hprepare : (runOn (prepare call.operation) (call.writing (r, ()))).1 = .error e) :
    Agrees b r call (.error (.notFound r.entity id .update)) (.error e)

/-- Two repositories of one class, over memory and over its table, that keep the same instances. -/
structure InStep (b : TableBinding) (r : Repository) (m : Repository × Records) (s : Repository × Database) :
    Prop where
  repository : ∃ published, m.1 = { r with published }
  same : s.1 = m.1
  simulates : ∃ t, b.Simulates r.descriptor r.identifier m.2 s.2 t

variable {s : Settings} {b : TableBinding} {r : Repository} {m : Repository × Records} {o : Repository × Database}

/-- A taken key is told as such by the table, or its columns are listed on several lines. -/
theorem agrees_taken (call : Call) (group : List (String × Value)) {names : List String} (hnames : names ≠ [])
    (hcolumns : ∀ name ∈ names, ∃ entry ∈ b.columns, entry.2.name = name) :
    Agrees b r call (.error (.collision (.values r.entity group)))
      (.error (b.report r.entity (.integrity (.unique b.schema.name names)))) := by
  rw [report]
  cases hlisted : listed? (IntegrityFault.unique b.schema.name names).message.toList with
  | some listed => exact .taken group _
  | none =>
    refine .unread group hcolumns ?_ hlisted
    by_contra hline
    obtain ⟨keys,hkeys⟩ := b.report_taken r.entity b.schema.name hnames hline
    rw [report,hlisted] at hkeys
    cases hkeys

/-- What a call prepares depends neither on the store nor on what was published. -/
theorem prepare_any (call : Call) (published : List (List (Event Value))) (db : Database) :
    (runOn (prepare call.operation) (call.writing ({ r with published }, db))).1 =
      (runOn (prepare call.operation) (call.writing (r, ()))).1 := by
  have hstore := uniform_prepare call.operation Database Unit (call.writing ({ r with published }, db)) ()
  exact (congrArg Prod.fst hstore).symm.trans (prepare_published call.operation (call.writing (r, ())) published)

/-- What is prepared of a suitable instance fits the class. -/
theorem Suits.fits {call : Call} (hsuits : Suits r call) (h : Tabular s r.descriptor b r.identifier)
    (hop : call.operation ≠ .delete) {published : List (List (Event Value))} {db : Database} {id : String}
    {record : Record}
    (hprepare : (runOn (prepare call.operation) (call.writing ({ r with published }, db))).1 = .ok (id, record)) :
    record.Fits r.descriptor ∧ record.field r.identifier.key = .str id := by
  have hunit := (prepare_any call published db).symm.trans hprepare
  have hadmitted := hsuits hop id record hunit
  have hscalar := h.tabular.identifier r.identifier h.mem h.identifies
  obtain ⟨k,hk,hholds,hthere⟩ := hadmitted r.identifier h.mem
  rw [hscalar] at hk
  cases hk
  obtain ⟨text,htext⟩ : ∃ text, record.field r.identifier.key = .str text := by
    rcases hholds with hnull | htakes
    · exact absurd hnull (hthere h.identifies)
    · match hfield : record.field r.identifier.key with
      | .str text => exact ⟨text,rfl⟩
      | .null | .bool _ | .int _ | .float _ | .complex _ _ | .bytes _ | .date _ | .moment _ | .list _ | .tuple _
      | .set _ | .mapping _ | .identifier _ | .member _ | .object _ | .type _ | .callable _ | .relationship _ =>
        rw [hfield] at htakes
        exact htakes.elim
  have hrelationship := Property.isRelationship_of_scalar (h.tabular.scalars r.identifier h.mem)
  obtain ⟨hkeys,rfl⟩ := prepare_record hunit hop h.bound.keys h.mem hrelationship htext
  exact ⟨⟨hkeys,hadmitted⟩,htext⟩

/-- The changes that a call makes to the two stores match. -/
theorem Simulates.change {t : Table} {records : Records} {db : Database}
    (h : Tabular s r.descriptor b r.identifier) (hsim : b.Simulates r.descriptor r.identifier records db t)
    {op : Operation} {id : String} {record : Record}
    (hfits : op ≠ .delete → record.Fits r.descriptor ∧ record.field r.identifier.key = .str id)
    (hready : op = .update → records.contains id = true) (published : List (List (Event Value))) :
    b.Matches r.descriptor r.identifier (Records.adapter.change op { r with published } id record records)
      (b.adapter.change op { r with published } id record db) := by
  cases op with
  | insert =>
    obtain ⟨hfits,hid⟩ := hfits (by decide)
    exact hsim.insert h hfits hid
  | update =>
    obtain ⟨hfits,hid⟩ := hfits (by decide)
    exact hsim.update h hfits hid (hready rfl)
  | delete => exact hsim.delete h

/-- Calls that change both stores alike agree and stay in step. -/
theorem InStep.matched (hstep : InStep b r m o) {call : Call} {records : Except Error Records}
    {rows : Except Error Database} (hmatches : b.Matches r.descriptor r.identifier records rows) {hook : Option Hook}
    {w : Writing Records} (hw : ∃ published, w.repository = { r with published })
    (hrecords : Ends call.operation.onRecords (call.writing m) w hook records)
    (hrows : Ends (call.operation.onRows b) (call.writing o) (w.withStore o.2) hook rows) :
    Agrees b r call (call.on Operation.onRecords m).1 (call.on (·.onRows b) o).1 ∧
      InStep b r (call.on Operation.onRecords m).2 (call.on (·.onRows b) o).2 := by
  cases hmatches with
  | refused e =>
    obtain hrecords | _ := hrecords
    obtain hrows | _ := hrows
    rw [Call.on_refused hrecords,Call.on_refused hrows]
    exact ⟨.same _,hstep⟩
  | taken hnames hcolumns =>
    obtain hrecords | _ := hrecords
    obtain hrows | _ := hrows
    rw [Call.on_refused hrecords,Call.on_refused hrows]
    exact ⟨agrees_taken call _ hnames hcolumns,hstep⟩
  | @stored records db t hsim =>
    obtain _ | hrecords := hrecords
    obtain _ | hrows := hrows
    have huniform := uniform_finish hook Records Database (w.withStore records) db
    rw [Writing.withStore_withStore] at huniform hrows
    rw [Call.on_finished hrecords,Call.on_finished hrows,huniform]
    obtain ⟨published,hw⟩ := hw
    obtain ⟨later,hlater⟩ := binds_finish hook (w.withStore records)
    refine ⟨.same _,⟨later,?_⟩,rfl,t,hsim⟩
    rw [hlater]
    change { w.repository with published := later } = _
    rw [hw]

/-- Records in memory are ready for an operation, or it is the update of an instance that is missing. -/
theorem ready_or_missing (call : Call) (opened : Repository × Records) :
    Records.adapter.Ready call.operation (call.writing opened) ∨
      call.operation = .update ∧ ∃ id, opened.1.entityId call.entity = .ok id ∧ opened.2.contains id = false := by
  by_cases hop : call.operation = .update
  · cases hid : opened.1.entityId call.entity with
    | error e =>
      refine .inl fun _ id hok => ?_
      rw [show opened.1.entityId call.entity = .ok id from hok] at hid
      cases hid
    | ok id =>
      cases hthere : opened.2.contains id with
      | false => exact .inr ⟨hop,id,rfl,hthere⟩
      | true =>
        refine .inl fun _ other hok => ?_
        cases hid.symm.trans hok
        change (if opened.2.contains id then _ else _) = _
        rw [hthere]
        rfl
  · exact .inl fun h => absurd h hop

/-- The update of an instance that is missing leaves both stores as they are. -/
theorem InStep.missing (h : Tabular s r.descriptor b r.identifier) (hstep : InStep b r m o) {call : Call}
    (hsuits : Suits r call) (hop : call.operation = .update) {text : String}
    (hid : m.1.entityId call.entity = .ok text) (hnew : m.2.contains text = false) :
    Agrees b r call (call.on Operation.onRecords m).1 (call.on (·.onRows b) o).1 ∧
      InStep b r (call.on Operation.onRecords m).2 (call.on (·.onRows b) o).2 := by
  rcases m with ⟨_,records⟩
  rcases o with ⟨_,db⟩
  obtain ⟨⟨published,rfl⟩,rfl,t,hsim⟩ := id hstep
  have hrecords : Refuses call.operation.onRecords (call.writing ({ r with published }, records))
      (.notFound r.entity text .update) := by
    rw [← write_records,hop]
    refine refuses_update hid ?_
    change (if records.contains text then _ else _) = _
    rw [hnew]
    rfl
  have hrows := write_spec (b.ready_rows call.operation (call.writing ({ r with published }, db)))
  rw [write_rows] at hrows
  rw [Call.on_refused hrecords]
  rcases hprepare : (runOn (prepare call.operation) (call.writing ({ r with published }, db))).1 with
    e | ⟨other,record⟩ <;> rw [hprepare] at hrows
  · rw [Call.on_refused hrows]
    exact ⟨.missing text hop ((prepare_any call published db).symm.trans hprepare),hstep⟩
  · have hdelete : call.operation ≠ .delete := by
      rw [hop]
      decide
    obtain rfl := Except.ok.inj ((prepare_id hprepare).symm.trans hid)
    have habsent := hsim.update_absent h (hsuits.fits h hdelete hprepare).1 hnew
    have hchange : b.adapter.change call.operation { r with published } other record db =
        .error (.notFound r.entity other .update) := by
      rw [hop]
      exact habsent
    dsimp only [Call.writing] at hrows
    rw [hchange] at hrows
    obtain hrows | _ := hrows
    rw [Call.on_refused hrows]
    exact ⟨.same _,hstep⟩

/-- One call keeps both repositories in step, and their answers agree. -/
theorem InStep.call (h : Tabular s r.descriptor b r.identifier) (hstep : InStep b r m o) {call : Call}
    (hsuits : Suits r call) :
    Agrees b r call (call.on Operation.onRecords m).1 (call.on (·.onRows b) o).1 ∧
      InStep b r (call.on Operation.onRecords m).2 (call.on (·.onRows b) o).2 := by
  rcases ready_or_missing call m with hready | ⟨hop,id,hid,hnew⟩
  · rcases m with ⟨_,records⟩
    rcases o with ⟨_,db⟩
    obtain ⟨⟨published,rfl⟩,rfl,t,hsim⟩ := id hstep
    have hrecords := write_spec hready
    have hrows := write_spec (b.ready_rows call.operation (call.writing ({ r with published }, db)))
    have hprepared : runOn (prepare call.operation) (call.writing ({ r with published }, db)) = _ :=
      uniform_prepare call.operation Records Database (call.writing ({ r with published }, records)) db
    have hbinds := binds_prepare call.operation (call.writing ({ r with published }, records))
    rw [write_records] at hrecords
    rw [write_rows] at hrows
    rcases hrun : runOn (prepare call.operation) (call.writing ({ r with published }, records)) with
      ⟨e | ⟨text,record⟩,w⟩ <;> rw [hrun] at hrecords hprepared hbinds <;> rw [hprepared] at hrows
    · rw [Call.on_refused hrecords,Call.on_refused hrows]
      exact ⟨.same _,hstep⟩
    · have hthere : call.operation = .update → records.contains text = true := by
        intro hop
        have hok := hready hop text (prepare_id (congrArg Prod.fst hrun))
        change (if records.contains text then _ else _) = _ at hok
        split at hok
        · assumption
        · cases hok
      have hmatches := hsim.change h (fun hop => hsuits.fits h hop (congrArg Prod.fst hprepared)) hthere published
      exact hstep.matched hmatches hbinds hrecords hrows
  · exact hstep.missing h hsuits hop hid hnew

theorem InStep.run (h : Tabular s r.descriptor b r.identifier) (hstep : InStep b r m o) {calls : List Call}
    (hsuits : ∀ call ∈ calls, Suits r call) :
    InStep b r (Call.run Operation.onRecords m calls) (Call.run (·.onRows b) o calls) := by
  induction calls generalizing m o with
  | nil => exact hstep
  | cons call rest ih =>
    have hnext := (hstep.call h (hsuits call List.mem_cons_self)).2
    exact ih hnext fun later hlater => hsuits later (List.mem_cons_of_mem call hlater)

/-- An empty store in memory and a new table are in step. -/
theorem inStep_created {db₀ db : Database} (hcreate : b.definition.create db₀ = .ok db)
    (hnew : db₀.table? b.definition.name = none) : InStep b r (r, []) (r, db) :=
  ⟨⟨r.published,rfl⟩,rfl,b.definition.empty,holds_created hcreate hnew,List.nodup_nil,.nil⟩

/-- After every series of writes to an empty store in memory and to a new table, both publish the same, find the
same instance under every identifier, list the same instances in the same order, and agree on the next write. -/
theorem stores_agree {registry : Registry} {c : Class Value} {schema : Relational} {db₀ db : Database}
    {calls : List Call} (hd : registry.descriptor (.cls c) = .ok r.descriptor)
    (hidentifier : r.descriptor.identifier? = some r.identifier)
    (hschema : (Relational.compile registry (.ok s) (.cls c) none 0).result = .ok schema)
    (hb : ofSchema r.descriptor schema = .ok b) (hcreate : b.definition.create db₀ = .ok db)
    (hnew : db₀.table? b.definition.name = none) (htabular : r.descriptor.IsTabular)
    (hsuits : ∀ call ∈ calls, Suits r call) (hm : m = Call.run Operation.onRecords (r, []) calls)
    (ho : o = Call.run (·.onRows b) (r, db) calls) :
    o.1 = m.1 ∧
      (∀ id, o.1.findRow b o.2 id = m.1.findRecord m.2.settled id) ∧
      o.1.allRows b o.2 = m.1.allRecords m.2.settled ∧
      ∀ call, Suits r call → Agrees b r call (call.on Operation.onRecords m).1 (call.on (·.onRows b) o).1 := by
  have hbound := bound_of_created hd (compile_registered hd hschema) hb hcreate hnew
  have h : Tabular s r.descriptor b r.identifier :=
    ⟨hbound,htabular,List.mem_of_find?_eq_some hidentifier,List.find?_some hidentifier⟩
  have hstep : InStep b r m o := by
    rw [hm,ho]
    exact (inStep_created hcreate hnew).run h hsuits
  obtain ⟨t,hsim⟩ := hstep.simulates
  rw [hstep.same]
  exact ⟨rfl,hsim.reads_one h m.1,hsim.reads_all h m.1,fun call hcall => (hstep.call h hcall).1⟩

/-- A note, which has a title. -/
def note : Class Value := ⟨.defined "Note" 0 [.builtin .object], none⟩

/-- A new note with one title. -/
def noting (key id : String) : Call where
  operation := .insert
  entity := .object ⟨0, note, [("id", .str id), (key, .str "x")], [], []⟩
  world := { clock := default }

/-- Both repositories of notes with a unique title under a key. -/
def notes (key : String) : Except Error (Repository × TableBinding × Database) := do
  let registry ← ({} : Registry).registerProperty (.cls note) (.str key)
    [("type", .type (.builtin .text)), ("unique", .bool true)]
  let d ← registry.descriptor (.cls note)
  let schema ← (Relational.compile registry (.ok Settings.defaults) (.cls note) none 0).result
  let b ← ofSchema d schema
  let r ← Repository.ofDescriptor d none
  let db ← b.definition.create []
  return (r, b, db)

/-- What both stores answer to a second note of the same title. -/
def secondNote (r : Repository) (b : TableBinding) (db : Database) (key : String) :
    Except Error Unit × Except Error Unit :=
  (((noting key "2").on Operation.onRecords (Call.run Operation.onRecords (r, []) [noting key "1"])).1,
    ((noting key "2").on (·.onRows b) (Call.run (·.onRows b) (r, db) [noting key "1"])).1)

/-- Whether a class is of texts alone, and a call gives it nothing else. -/
def isOfTexts (r : Repository) (call : Call) : Bool :=
  r.descriptor.properties.all (fun p => p.scalar? == some .string && p.optional != some false) &&
    (Records.uniqueGroups r.descriptor).all (fun group => group.all r.descriptor.keys.contains) &&
    match (runOn (prepare call.operation) (call.writing (r, ()))).1 with
    | .ok (_, record) => r.descriptor.properties.all fun p =>
      match record.field p.key with
      | .str _ => true
      | _ => false
    | .error _ => true

theorem suits_of_texts {call : Call} (h : isOfTexts r call = true) : r.descriptor.IsTabular ∧ Suits r call := by
  simp only [isOfTexts,Bool.and_eq_true,List.all_eq_true,beq_iff_eq,bne_iff_ne,List.contains_iff_mem] at h
  obtain ⟨⟨hproperties,hgroups⟩,hrecord⟩ := h
  refine ⟨⟨?_,fun p hp => (hproperties p hp).2,fun p hp _ => (hproperties p hp).1,?_⟩,?_⟩
  · intro p hp
    rw [(hproperties p hp).1]
    rfl
  · intro group hgroup key hkey
    obtain ⟨p,hp,hname⟩ := List.mem_map.mp (hgroups group hgroup key hkey)
    exact ⟨p,hp,hname,.string,(hproperties p hp).1,.inl rfl⟩
  · intro _ id record hprepare p hp
    rw [hprepare] at hrecord
    have htext := List.all_eq_true.mp hrecord p hp
    split at htext
    · rename_i text hfield
      rw [hfield]
      exact ⟨.string,(hproperties p hp).1,.inr trivial,fun _ => Value.noConfusion⟩
    · cases htext

theorem stores_agree_notes : ∃ r b db, notes "title" = .ok (r, b, db) ∧
    Agrees b r (noting "title" "2") (secondNote r b db "title").1 (secondNote r b db "title").2 := by
  have hok : ((notes "title").toOption.any fun (r, _, _) =>
      isOfTexts r (noting "title" "1") && isOfTexts r (noting "title" "2")) = true := by
    decide +kernel
  obtain ⟨⟨r,b,db⟩,hnotes,h⟩ := exists_ok_of_any hok
  simp only [Bool.and_eq_true] at h
  obtain ⟨hfirst,hsecond⟩ := h
  obtain ⟨htabular,hfirst⟩ := suits_of_texts hfirst
  refine ⟨r,b,db,hnotes,?_⟩
  obtain ⟨registry,_,h⟩ := bind_eq_ok.mp hnotes
  obtain ⟨d,schema,b,_,db,hd,hschema,hb,hidentifier,hcreate,h⟩ := exists_created h
  cases pure_eq_ok.mp h
  exact (stores_agree hd hidentifier hschema hb hcreate rfl htabular (List.forall_mem_singleton.mpr hfirst) rfl
    rfl).2.2.2 _ (suits_of_texts hsecond).2

/-- Whether memory refuses a second note as a collision, and the table with what the database says. -/
def isRefusedApart : Except Error Unit × Except Error Unit → Bool
  | (.error (.collision (.values "Note" _)), .error (.integrity (.unique "Note" _))) => true
  | _ => false

/-- A second note of the same title is refused as a collision in memory, and with what the database says by a
table whose column for the title has a name of two lines. -/
theorem stores_disagree : ∃ r b db group names, notes "first\nline" = .ok (r, b, db) ∧
    secondNote r b db "first\nline" =
      (.error (.collision (.values "Note" group)), .error (.integrity (.unique "Note" names))) := by
  have hok : ((notes "first\nline").toOption.any fun opened =>
      isRefusedApart (secondNote opened.1 opened.2.1 opened.2.2 "first\nline")) = true := by decide +kernel
  obtain ⟨⟨r,b,db⟩,hnotes,h⟩ := exists_ok_of_any hok
  unfold isRefusedApart at h
  split at h
  · rename_i group names hanswers
    exact ⟨r,b,db,group,names,hnotes,hanswers⟩
  · cases h

end TableBinding

end Trischema
