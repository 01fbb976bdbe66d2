import Trischema.Proofs.Repository.Connections
import Trischema.Proofs.Repository.Refusals
import Trischema.Proofs.Repository.Simulation
import Trischema.Proofs.Value.Equality

/-!
What a store in memory keeps. Whatever is written to it, it holds one record for an identifier, each with the
properties of the class, no two of them equal on a unique key; a write concerns the record of its instance alone.
-/

namespace Trischema

namespace Adapter

open Write

variable {σ : Type} {a : Adapter σ} {op : Operation} {w : Writing σ}

/-- What storing did when it succeeded: the store was changed with a record of the class. -/
structure Stored (a : Adapter σ) (op : Operation) (w : Writing σ) (id : String) (store : σ) : Prop where
  identified : w.repository.entityId w.entity = .ok id
  ready : op = .update → a.ready w.repository id w.store = .ok ()
  changed : ∃ record, (op ≠ .delete → record.map (·.1) = w.repository.descriptor.keys) ∧
    a.change op w.repository id record w.store = .ok store

theorem record_keys {record : Record} {w' : Writing σ} (h : runOn Write.record w = (.ok record, w')) :
    record.map (·.1) = w.repository.descriptor.keys := by
  rw [runOn_record] at h
  exact Descriptor.recordFor_keys (congrArg Prod.fst h)

/-- Making the record of an instance leaves the store and the repository. -/
theorem record_rest {result : Except Error Record} {w' : Writing σ} (h : runOn Write.record w = (result, w')) :
    w'.store = w.store ∧ w'.repository = w.repository := by
  rw [runOn_record] at h
  cases h
  exact ⟨rfl,rfl⟩

/-- An update of a touched instance leaves the repository, and was made with a record of the class. -/
theorem touched_update (id : String) (store : σ) (w : Writing σ) :
    match runOn (touched do Write.ofExcept (a.update w.repository id (← Write.record) store)) w with
    | (.error _, w') => w'.store = w.store ∧ w'.repository = w.repository
    | (.ok store', w') => w'.repository = w.repository ∧ ∃ record,
        record.map (·.1) = w.repository.descriptor.keys ∧ a.update w.repository id record store = .ok store' := by
  have hstore := (uniform_callIfAny Hook.touch.name).store w
  have hrepository := callIfAny_repository Hook.touch.name w
  rw [runOn_touched]
  rcases htouch : runOn (callIfAny Hook.touch.name) w with ⟨e | reply,w'⟩ <;> rw [htouch] at hstore hrepository
  · exact ⟨hstore,hrepository⟩
  · dsimp only at hstore hrepository ⊢
    rw [runOn_bind]
    rcases hrecord : runOn Write.record w' with ⟨e | record,w''⟩
    · obtain ⟨hstore',hrepository'⟩ := record_rest hrecord
      obtain ⟨hrestored,hrestored'⟩ :=
        restore_rest reply.isSome (w.entity.attributeOrNull "updated_at") w''
      exact ⟨hrestored.trans (hstore'.trans hstore),hrestored'.trans (hrepository'.trans hrepository)⟩
    · obtain ⟨hstore',hrepository'⟩ := record_rest hrecord
      have hkeys := record_keys hrecord
      dsimp only
      rw [runOn_ofExcept]
      rcases hupdate : a.update w.repository id record store with e | store'
      · obtain ⟨hrestored,hrestored'⟩ :=
          restore_rest reply.isSome (w.entity.attributeOrNull "updated_at") w''
        exact ⟨hrestored.trans (hstore'.trans hstore),hrestored'.trans (hrepository'.trans hrepository)⟩
      · rw [hrepository] at hkeys
        exact ⟨hrepository'.trans hrepository,record,hkeys,hupdate⟩

/-- Storing leaves the repository; when it fails, it leaves the store. -/
theorem storing_cases (a : Adapter σ) (op : Operation) (w : Writing σ) :
    match runOn (a.storing op) w with
    | (.error _, w') => w'.store = w.store ∧ w'.repository = w.repository
    | (.ok _, w') => w'.repository = w.repository ∧ ∃ id, Stored a op w id w'.store := by
  cases op with
  | insert =>
    simp only [storing,runOn_bind,runOn_entityId]
    rcases hid : w.repository.entityId w.entity with e | id
    · exact ⟨rfl,rfl⟩
    · dsimp only
      rcases hrecord : runOn Write.record w with ⟨e | record,w'⟩
      · exact record_rest hrecord
      · obtain ⟨hstore,hrepository⟩ := record_rest hrecord
        simp only [runOn_get,runOn_ofExcept]
        rcases hinsert : a.insert w'.repository id record w'.store with e | store
        · exact ⟨hstore,hrepository⟩
        · rw [hstore,hrepository] at hinsert
          exact ⟨hrepository,id,hid,Operation.noConfusion,record,fun _ => record_keys hrecord,hinsert⟩
  | update =>
    simp only [storing,runOn_bind,runOn_entityId]
    rcases hid : w.repository.entityId w.entity with e | id
    · exact ⟨rfl,rfl⟩
    · simp only [runOn_get,runOn_ofExcept]
      rcases hready : a.ready w.repository id w.store with e | _
      · exact ⟨rfl,rfl⟩
      · dsimp only
        have htouched := touched_update (a := a) id w.store w
        rcases hrun : runOn (touched do Write.ofExcept (a.update w.repository id (← Write.record) w.store)) w with
          ⟨e | store,w'⟩ <;> rw [hrun] at htouched
        · exact htouched
        · obtain ⟨hrepository,record,hkeys,hupdate⟩ := htouched
          exact ⟨hrepository,id,hid,fun _ => hready,record,fun _ => hkeys,hupdate⟩
  | delete =>
    simp only [storing,runOn_bind,runOn_entityId]
    rcases hid : w.repository.entityId w.entity with e | id
    · exact ⟨rfl,rfl⟩
    · simp only [runOn_get,runOn_ofExcept]
      rcases hdelete : a.delete w.repository id w.store with e | store
      · exact ⟨rfl,rfl⟩
      · exact ⟨rfl,id,hid,Operation.noConfusion,[],fun h => absurd rfl h,hdelete⟩

end Adapter

namespace Records

variable {d : Descriptor} {records left : Records} {id : String} {record : Record}

/-- What every store in memory keeps to. -/
structure Kept (d : Descriptor) (records : Records) : Prop where
  /-- no two records are under one identifier -/
  ids : (records.map (·.1)).Nodup
  /-- a record has the properties of the class, in their order -/
  keys : ∀ entry ∈ records, entry.2.map (·.1) = d.keys
  /-- no two records are equal on a unique key -/
  apart : ∀ group ∈ uniqueGroups d, ∀ x ∈ records, ∀ y ∈ records, x.1 ≠ y.1 →
    ¬(collide group x.2 y.2 = true ∧ collide group y.2 x.2 = true)

theorem checkUnique_eq_ok {stored : List Record} : checkUnique d stored record = .ok ⟨⟩ ↔
    ∀ group ∈ uniqueGroups d, ∀ r ∈ stored, collide group r record = false := by
  rw [checkUnique,takenGroup?]
  cases hfound : (uniqueGroups d).find? fun group => stored.any fun r => collide group r record with
  | none =>
    rw [List.find?_eq_none] at hfound
    simpa using hfound
  | some group =>
    obtain ⟨hgroup,hany⟩ := And.intro (List.mem_of_find?_eq_some hfound) (List.find?_some hfound)
    obtain ⟨r,hr,hcollide⟩ := List.any_eq_true.mp hany
    refine ⟨fun h => by (cases h),fun h => ?_⟩
    rw [h group hgroup r hr] at hcollide
    cases hcollide

/-- What a call does to a store: nothing, or one change. -/
inductive Step (d : Descriptor) (records : Records) : Option (Operation × String) → Records → Prop
  | none : Step d records none records
  | insert {id : String} {record : Record} (hkeys : record.map (·.1) = d.keys) (hnew : records.contains id = false)
      (hfree : ∀ group ∈ uniqueGroups d, ∀ entry ∈ records, collide group entry.2 record = false) :
      Step d records (some (.insert, id)) (records ++ [(id, record)])
  | update {id : String} {record : Record} (hkeys : record.map (·.1) = d.keys) (hthere : records.contains id = true)
      (hfree : ∀ group ∈ uniqueGroups d, ∀ entry ∈ records, entry.1 ≠ id → collide group entry.2 record = false) :
      Step d records (some (.update, id)) (setNamed records id record)
  | delete {id : String} (hthere : records.contains id = true) :
      Step d records (some (.delete, id)) (records.filter fun (k, _) => k != id)

/-- Storing a record makes one step. -/
theorem step_of_stored {op : Operation} {w : Writing Records} (h : adapter.Stored op w id left) :
    Step w.repository.descriptor w.store (some (op, id)) left := by
  obtain ⟨_,hready,record,hkeys,hchange⟩ := h
  cases op with
  | insert =>
    change Records.insert _ _ _ _ = .ok left at hchange
    rw [Records.insert] at hchange
    split at hchange
    · cases hchange
    · rename_i hnew
      obtain ⟨_,hfree,hchange⟩ := bind_eq_ok.mp hchange
      cases pure_eq_ok.mp hchange
      rw [checkUnique_eq_ok] at hfree
      exact .insert (hkeys (by decide)) (Bool.eq_false_iff.mpr hnew)
        fun group hgroup entry hentry => hfree group hgroup _ (List.mem_map_of_mem hentry)
  | update =>
    have hthere : w.store.contains id = true := by
      have hready := hready rfl
      change (if w.store.contains id then _ else _) = _ at hready
      split at hready
      · assumption
      · cases hready
    obtain ⟨_,hfree,hchange⟩ := bind_eq_ok.mp hchange
    cases pure_eq_ok.mp hchange
    rw [checkUnique_eq_ok] at hfree
    refine .update (hkeys (by decide)) hthere fun group hgroup entry hentry hne => hfree group hgroup _ ?_
    exact List.mem_map_of_mem (List.mem_filter.mpr ⟨hentry,bne_iff_ne.mpr hne⟩)
  | delete =>
    change Records.delete _ _ _ = .ok left at hchange
    rw [Records.delete] at hchange
    split at hchange
    · cases hchange
      exact .delete ‹_›
    · cases hchange

theorem contains_iff_mem : records.contains id = true ↔ id ∈ records.map (·.1) := by
  rw [contains_iff,List.mem_map]

/-- A record that is replaced keeps its place among the others. -/
theorem setNamed_there (hids : (records.map (·.1)).Nodup) (hthere : records.contains id = true) (record : Record) :
    ∃ before old after, records = before ++ (id, old) :: after ∧ setNamed records id record =
      before ++ (id, record) :: after ∧ ∀ entry ∈ before ++ after, entry.1 ≠ id := by
  obtain ⟨before,old,after,rfl,hne⟩ := exists_split hids hthere
  exact ⟨before,old,after,rfl,setNamed_split fun entry hentry => hne entry (List.mem_append_left after hentry),hne⟩

/-- A record that is free of collisions joins the others. -/
theorem Kept.join (h : Kept d records) (id : String) (record : Record)
    (hsub : left ⊆ (id, record) :: records.filter (·.1 != id))
    (hids : (left.map (·.1)).Nodup) (hkeys : record.map (·.1) = d.keys)
    (hfree : ∀ group ∈ uniqueGroups d, ∀ entry ∈ records, entry.1 ≠ id → collide group entry.2 record = false) :
    Kept d left := by
  have hmem : ∀ entry ∈ left, entry = (id, record) ∨ entry ∈ records ∧ entry.1 ≠ id := by
    intro entry hentry
    obtain h | hentry := List.mem_cons.mp (hsub hentry)
    · exact .inl h
    · obtain ⟨hentry,hne⟩ := List.mem_filter.mp hentry
      exact .inr ⟨hentry,bne_iff_ne.mp hne⟩
  refine ⟨hids,fun entry hentry => ?_,fun group hgroup x hx y hy hne => ?_⟩
  · obtain rfl | ⟨hentry,_⟩ := hmem entry hentry
    · exact hkeys
    · exact h.keys entry hentry
  · obtain rfl | ⟨hx,hxid⟩ := hmem x hx <;> obtain rfl | ⟨hy,hyid⟩ := hmem y hy
    · exact absurd rfl hne
    · exact fun hboth => Bool.false_ne_true ((hfree group hgroup y hy hyid).symm.trans hboth.2)
    · exact fun hboth => Bool.false_ne_true ((hfree group hgroup x hx hxid).symm.trans hboth.1)
    · exact h.apart group hgroup x hx y hy hne

theorem collide_comm {group : List String} {x y : Record}
    (hplain : ∀ key ∈ group, (x.field key).isPlain = true ∧ (y.field key).isPlain = true)
    (h : collide group x y = true) : collide group y x = true := by
  rw [collide,List.all_eq_true] at h ⊢
  intro key hkey
  obtain ⟨hnull,hsame⟩ := Bool.and_eq_true_iff.mp (h key hkey)
  obtain ⟨hx,hy⟩ := hplain key hkey
  have hsame' : (y.field key).same (x.field key) = true := by rwa [Value.same_comm hy hx]
  rw [hsame',Bool.and_true,Bool.not_eq_true']
  cases hnull' : (x.field key).isNull with
  | false => rfl
  | true =>
    have hx : x.field key = .null := Value.isNull_iff.mp hnull'
    rw [hx] at hsame
    rw [Value.eq_null_of_same hsame] at hnull
    cases hnull

/-- Plain records under different identifiers are not equal on a unique key. -/
theorem Kept.apart_plain (h : Kept d records) {group : List String} (hgroup : group ∈ uniqueGroups d)
    {x y : String × Record} (hx : x ∈ records) (hy : y ∈ records) (hne : x.1 ≠ y.1)
    (hplain : ∀ key ∈ group, (x.2.field key).isPlain = true ∧ (y.2.field key).isPlain = true) :
    collide group x.2 y.2 = false :=
  Bool.eq_false_iff.mpr fun hcollide => h.apart group hgroup x hx y hy hne ⟨hcollide,collide_comm hplain hcollide⟩

theorem kept_nil : Kept d [] := ⟨List.nodup_nil,fun _ h => (nomatch h),fun _ _ _ h => nomatch h⟩

/-- A step keeps to it. -/
theorem Kept.step {effect : Option (Operation × String)} (h : Kept d records) (hstep : Step d records effect left) :
    Kept d left := by
  cases hstep with
  | none => exact h
  | @insert id record hkeys hnew hfree =>
    have hne := ne_of_not_contains hnew
    refine h.join id record ?_ ?_ hkeys fun group hgroup entry hentry _ =>
      hfree group hgroup entry hentry
    · intro entry hentry
      obtain hentry | hentry := List.mem_append.mp hentry
      · exact List.mem_cons_of_mem _ (List.mem_filter.mpr ⟨hentry,bne_iff_ne.mpr (hne entry hentry)⟩)
      · exact List.mem_cons.mpr (.inl (List.mem_singleton.mp hentry))
    · rw [List.map_append,List.nodup_append]
      refine ⟨h.ids,List.nodup_singleton _,fun k hk k' hk' => ?_⟩
      obtain ⟨entry,hentry,rfl⟩ := List.mem_map.mp hk
      rw [List.mem_singleton.mp hk']
      exact hne entry hentry
  | @update id record hkeys hthere hfree =>
    obtain ⟨before,old,after,hrecords,hleft,hne⟩ := setNamed_there h.ids hthere record
    refine h.join id record ?_ ?_ hkeys hfree
    · rw [hleft,hrecords]
      intro entry hentry
      obtain hentry | hentry := List.mem_cons.mp (List.perm_middle.mem_iff.mp hentry)
      · exact List.mem_cons.mpr (.inl hentry)
      · have hthere : entry ∈ before ++ (id, old) :: after :=
          List.perm_middle.mem_iff.mpr (List.mem_cons_of_mem _ hentry)
        exact List.mem_cons_of_mem _ (List.mem_filter.mpr ⟨hthere,bne_iff_ne.mpr (hne entry hentry)⟩)
    · have hids := h.ids
      rw [hrecords] at hids
      rw [hleft]
      simpa using hids
  | @delete id _ =>
    have hsub : records.filter (fun (k, _) => k != id) ⊆ records := List.filter_subset_self records
    exact ⟨h.ids.sublist (List.filter_sublist.map _),fun entry hentry => h.keys entry (hsub hentry),
      fun group hgroup x hx y hy => h.apart group hgroup x (hsub hx) y (hsub hy)⟩

/-- A step leaves the records under other identifiers as they are and where they are. -/
theorem Step.frame {op : Operation} (h : Kept d records) (hstep : Step d records (some (op, id)) left) :
    left.filter (·.1 != id) = records.filter (·.1 != id) := by
  cases hstep with
  | insert => simp
  | @update _ record _ hthere _ =>
    obtain ⟨before,old,after,hrecords,hleft,_⟩ := setNamed_there h.ids hthere record
    rw [hleft,hrecords]
    simp
  | delete => simp [List.filter_filter]

/-- Which identifiers are there after a step. -/
theorem Step.contains {op : Operation} {other : String} (h : Kept d records)
    (hstep : Step d records (some (op, id)) left) : left.contains other = true ↔
      match op with
      | .insert => other = id ∨ records.contains other = true
      | .update => records.contains other = true
      | .delete => records.contains other = true ∧ other ≠ id := by
  cases hstep with
  | insert => simp [contains_iff_mem,or_comm]
  | @update _ record _ hthere _ =>
    obtain ⟨before,old,after,hrecords,hleft,_⟩ := setNamed_there h.ids hthere record
    have hids : (setNamed records id record).map (·.1) = records.map (·.1) := by
      rw [hleft,hrecords,List.map_append,List.map_append,List.map_cons,List.map_cons]
    change _ ↔ records.contains other = true
    rw [contains_iff_mem,contains_iff_mem,hids]
  | delete => simp [contains_iff_mem]

end Records

namespace Call

variable {opened : Repository × Records} {call : Call} {id : String}

/-- What a call changed in a store in memory: the operation and the identifier, unless it failed before its hook. -/
def effect? (call : Call) (opened : Repository × Records) : Option (Operation × String) :=
  match (Write.runOn (Records.adapter.storing call.operation) (call.writing opened)).1 with
  | .ok _ => (opened.1.entityId call.entity).toOption.map fun id => (call.operation, id)
  | .error _ => none

/-- What a series of calls changed, from the first change to the last. -/
def effects (opened : Repository × Records) : List Call → List (Operation × String)
  | [] => []
  | call :: rest => (call.effect? opened).toList ++ effects (call.on Operation.onRecords opened).2 rest

/-- Whether changes leave a record under an identifier: its last insertion is not followed by its removal. -/
def Leave (changes : List (Operation × String)) (id : String) : Prop :=
  ∃ before after, changes = before ++ (.insert, id) :: after ∧ (.delete, id) ∉ after

/-- A call makes one step. -/
theorem on_step (call : Call) (opened : Repository × Records) :
    (call.on Operation.onRecords opened).2.1.descriptor = opened.1.descriptor ∧
      Records.Step opened.1.descriptor opened.2 (call.effect? opened) (call.on Operation.onRecords opened).2.2 := by
  have hcases := Adapter.storing_cases Records.adapter call.operation (call.writing opened)
  rw [on,effect?,Operation.onRecords_eq_storing,Write.runOn_bind]
  rcases hrun : Write.runOn (Records.adapter.storing call.operation) (call.writing opened) with ⟨e | _,w⟩ <;>
    rw [hrun] at hcases
  · obtain ⟨hstore,hrepository⟩ := hcases
    refine ⟨congrArg Repository.descriptor hrepository,?_⟩
    dsimp only
    rw [hstore]
    exact .none
  · obtain ⟨hrepository,id,hstored⟩ := hcases
    obtain ⟨published,hfinish⟩ := Write.binds_finish (Adapter.hookOf call.operation) w
    have hstep := Records.step_of_stored hstored
    have hid : opened.1.entityId call.entity = .ok id := hstored.identified
    dsimp only
    rw [hfinish,(Write.uniform_finish (Adapter.hookOf call.operation)).store w,hrepository,hid]
    exact ⟨rfl,hstep⟩

theorem on_none (h : call.effect? opened = none) : (call.on Operation.onRecords opened).2.2 = opened.2 := by
  have hstep := (on_step call opened).2
  generalize (call.on Operation.onRecords opened).2.2 = left at hstep
  rw [h] at hstep
  cases hstep with
  | none => rfl

theorem leave_snoc {past : List (Operation × String)} {change : Operation × String} :
    Leave (past ++ [change]) id ↔ change = (.insert, id) ∨ Leave past id ∧ change ≠ (.delete, id) := by
  constructor
  · rintro ⟨before,after,heq,hnone⟩
    rcases after.eq_nil_or_concat with rfl | ⟨after,last,rfl⟩
    · exact .inl (List.append_inj_right' heq rfl |> List.singleton_inj.mp)
    · rw [List.concat_eq_append] at heq hnone
      rw [← List.cons_append,← List.append_assoc] at heq
      obtain rfl := List.singleton_inj.mp (List.append_inj_right' heq rfl)
      rw [List.mem_append,not_or,List.mem_singleton] at hnone
      exact .inr ⟨⟨before,after,List.append_inj_left' heq rfl,hnone.1⟩,Ne.symm hnone.2⟩
  · rintro (rfl | ⟨⟨before,after,rfl,hnone⟩,hne⟩)
    · exact ⟨past,[],rfl,List.not_mem_nil⟩
    · refine ⟨before,after ++ [change],by rw [List.append_assoc,List.cons_append],?_⟩
      rw [List.mem_append,List.mem_singleton]
      exact fun h => h.elim hnone fun heq => hne heq.symm

/-- Which identifiers are there after a call, given which were there before. -/
theorem leave_step {past : List (Operation × String)} (hkept : Records.Kept opened.1.descriptor opened.2)
    (hpast : ∀ id, opened.2.contains id = true ↔ Leave past id) (call : Call) (id : String) :
    (call.on Operation.onRecords opened).2.2.contains id = true ↔ Leave (past ++ (call.effect? opened).toList) id := by
  cases heffect : call.effect? opened with
  | none =>
    rw [on_none heffect]
    simpa using hpast id
  | some change =>
    obtain ⟨op,changed⟩ := change
    have hstep := (on_step call opened).2
    rw [heffect] at hstep
    rw [Option.toList_some,leave_snoc,hstep.contains hkept,← hpast]
    cases op <;> simp [@eq_comm _ changed id]

theorem run_keeps_records {past : List (Operation × String)} (hkept : Records.Kept opened.1.descriptor opened.2)
    (hpast : ∀ id, opened.2.contains id = true ↔ Leave past id) (calls : List Call) :
    Records.Kept opened.1.descriptor (run Operation.onRecords opened calls).2 ∧
      ∀ id, (run Operation.onRecords opened calls).2.contains id = true ↔ Leave (past ++ effects opened calls) id := by
  induction calls generalizing opened past with
  | nil => exact ⟨hkept,by simpa [effects,run] using hpast⟩
  | cons call rest ih =>
    obtain ⟨hdescriptor,hstep⟩ := on_step call opened
    have hkept' : Records.Kept (call.on Operation.onRecords opened).2.1.descriptor
        (call.on Operation.onRecords opened).2.2 := by
      rw [hdescriptor]
      exact hkept.step hstep
    have hnext := ih hkept' (leave_step hkept hpast call)
    rw [hdescriptor,List.append_assoc] at hnext
    exact hnext

/-- What a call changed was what it is for, under the identifier of its instance. -/
theorem effect?_identified {op : Operation} (h : call.effect? opened = some (op, id)) :
    op = call.operation ∧ opened.1.entityId call.entity = .ok id := by
  rw [effect?] at h
  split at h
  · obtain ⟨id',hid,heq⟩ := Option.map_eq_some_iff.mp h
    cases heq
    cases hentity : opened.1.entityId call.entity with
    | error e =>
      rw [hentity] at hid
      cases hid
    | ok id =>
      rw [hentity] at hid
      cases hid
      exact ⟨rfl,rfl⟩
  · cases h

/-- A call leaves the records under other identifiers than that of its instance as they are and where they are. -/
theorem on_frame (hkept : Records.Kept opened.1.descriptor opened.2) (hid : opened.1.entityId call.entity = .ok id) :
    (call.on Operation.onRecords opened).2.2.filter (·.1 != id) = opened.2.filter (·.1 != id) := by
  cases heffect : call.effect? opened with
  | none => rw [on_none heffect]
  | some change =>
    obtain ⟨op,changed⟩ := change
    have hstep := (on_step call opened).2
    rw [heffect] at hstep
    obtain rfl : changed = id := Except.ok.inj ((effect?_identified heffect).2.symm.trans hid)
    exact hstep.frame hkept

/-- A call that succeeds changed the store. -/
theorem effect?_of_success (h : (call.on Operation.onRecords opened).1 = .ok ⟨⟩) :
    ∃ id, call.effect? opened = some (call.operation, id) := by
  have hcases := Adapter.storing_cases Records.adapter call.operation (call.writing opened)
  rw [on,Operation.onRecords_eq_storing,Write.runOn_bind] at h
  rw [effect?]
  rcases hrun : Write.runOn (Records.adapter.storing call.operation) (call.writing opened) with ⟨e | _,w⟩ <;>
    rw [hrun] at hcases h
  · cases h
  · obtain ⟨_,id,hstored⟩ := hcases
    have hid : opened.1.entityId call.entity = .ok id := hstored.identified
    exact ⟨id,by rw [hid]; rfl⟩

/-- Whatever is written to an empty store in memory, it keeps one record with the properties of the class for an
identifier, plain records are never equal on a unique key, the next call concerns the record of its instance alone,
and there is a record exactly where the last insertion is not followed by a removal. Calls that succeed change the
store; those that fail in their hook or while publishing have changed it before. -/
theorem records_kept {r : Repository} {calls : List Call} {left : Repository × Records}
    (hleft : left = run Operation.onRecords (r, []) calls) :
    Records.Kept r.descriptor left.2 ∧
      (∀ group ∈ Records.uniqueGroups r.descriptor, ∀ x ∈ left.2, ∀ y ∈ left.2, x.1 ≠ y.1 →
        (∀ key ∈ group, (x.2.field key).isPlain = true ∧ (y.2.field key).isPlain = true) →
          Records.collide group x.2 y.2 = false) ∧
      (∀ (call : Call) id, left.1.entityId call.entity = .ok id →
        (call.on Operation.onRecords left).2.2.filter (·.1 != id) = left.2.filter (·.1 != id)) ∧
      (∀ id, left.2.contains id = true ↔ Leave (effects (r, []) calls) id) ∧
      ∀ call : Call, (call.effect? left = none → (call.on Operation.onRecords left).2.2 = left.2) ∧
        ((call.on Operation.onRecords left).1 = .ok ⟨⟩ → ∃ id, call.effect? left = some (call.operation, id)) := by
  have hempty : ∀ id, Records.contains [] id = true ↔ Leave [] id := fun id =>
    ⟨fun h => (nomatch h),fun ⟨before,after,heq,_⟩ => absurd heq (by simp)⟩
  have hkept : Records.Kept (r, ([] : Records)).1.descriptor (r, ([] : Records)).2 := Records.kept_nil
  obtain ⟨hkept,hthere⟩ := run_keeps_records hkept hempty calls
  rw [← hleft] at hkept hthere
  have hdescriptor : left.1.descriptor = r.descriptor := by
    rw [hleft]
    exact run_keeps (fun opened => opened.1.descriptor = r.descriptor)
      (fun call opened h => (on_step call opened).1.trans h) rfl calls
  refine ⟨hkept,fun group hgroup x hx y hy hne hplain => hkept.apart_plain hgroup hx hy hne hplain,fun call id hid => ?_,
    hthere,fun call => ⟨on_none,effect?_of_success⟩⟩
  rw [← hdescriptor] at hkept
  exact on_frame hkept hid

/-- The insertion of a new draft. -/
def insertDraft (o : Object Value) : Call := ⟨.insert, .object o, { clock := default }⟩

/-- A draft that was stored is there. -/
theorem records_kept_draft : ∃ o r b db, drafts = .ok (o, r, b, db) ∧
    Records.Kept r.descriptor (run Operation.onRecords (r, []) [insertDraft o]).2 ∧
    Leave (effects (r, []) [insertDraft o]) "1" := by
  have hok : (drafts.toOption.any fun made =>
      (run Operation.onRecords (made.2.1, []) [insertDraft made.1]).2.contains "1") = true := by
    decide +kernel
  obtain ⟨⟨o,r,b,db⟩,hdrafts,hthere⟩ := exists_ok_of_any hok
  obtain ⟨hkept,_,_,hleave,_⟩ := @records_kept r [insertDraft o] _ rfl
  exact ⟨o,r,b,db,hdrafts,hkept,(hleave "1").mp hthere⟩

/-- Whether the program failed. -/
def isFailure : Except Error Unit → Bool
  | .error (.failure .program) => true
  | _ => false

/-- An insertion that fails because its event cannot be published leaves a record, although no insertion succeeded. -/
theorem records_kept_unpublished : ∃ o r b db, drafts = .ok (o, r, b, db) ∧
    ((insertDraft o).on Operation.onRecords ({ r with publisher := some .failing }, [])).1 =
      .error (.failure .program) ∧
    (run Operation.onRecords ({ r with publisher := some .failing }, []) [insertDraft o]).2.contains "1" = true := by
  have hok : (drafts.toOption.any fun made =>
      isFailure ((insertDraft made.1).on Operation.onRecords ({ made.2.1 with publisher := some .failing }, [])).1 &&
      (run Operation.onRecords ({ made.2.1 with publisher := some .failing }, []) [insertDraft made.1]).2.contains
        "1") = true := by
    decide +kernel
  obtain ⟨⟨o,r,b,db⟩,hdrafts,h⟩ := exists_ok_of_any hok
  obtain ⟨hfails,hthere⟩ := Bool.and_eq_true_iff.mp h
  refine ⟨o,r,b,db,hdrafts,?_,hthere⟩
  unfold isFailure at hfails
  split at hfails
  · assumption
  · cases hfails

end Call

end Trischema
