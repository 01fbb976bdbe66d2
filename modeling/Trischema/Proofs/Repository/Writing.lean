import Trischema.Proofs.Outcome
import Trischema.Repository.Records
import Trischema.Repository.Tables

/-!
What writes do, told apart from how they change the store: both kinds of store are written through the
same steps, and everything around the change of the store is the same for every store.
-/

namespace Trischema

theorem Repository.ofDescriptor_eq_ok {d : Descriptor} {publisher : Option Publisher} {r : Repository}
    (h : ofDescriptor d publisher = .ok r) :
    ∃ identifier, d.identifier? = some identifier ∧ r = { descriptor := d, identifier, publisher } := by
  rw [ofDescriptor] at h
  split at h
  · rename_i identifier hidentifier
    cases h
    exact ⟨identifier,hidentifier,rfl⟩
  · cases h

/-- What a table is created from: its class is described and compiled, its columns are bound, and it has an identifier. -/
theorem TableBinding.exists_created {α : Type} {registry : Registry} {c : Class Value} {a : α}
    {rest : Descriptor → Repository → TableBinding → Database → Except Error α}
    (h : (do
      let d ← registry.descriptor (.cls c)
      let schema ← (Relational.compile registry (.ok Settings.defaults) (.cls c) none 0).result
      let b ← ofSchema d schema
      let r ← Repository.ofDescriptor d none
      let db ← b.definition.create []
      rest d r b db) = .ok a) :
    ∃ d schema b identifier db, registry.descriptor (.cls c) = .ok d ∧
      (Relational.compile registry (.ok Settings.defaults) (.cls c) none 0).result = .ok schema ∧
      ofSchema d schema = .ok b ∧ d.identifier? = some identifier ∧ b.definition.create [] = .ok db ∧
      rest d { descriptor := d, identifier } b db = .ok a := by
  obtain ⟨d,hd,h⟩ := bind_eq_ok.mp h
  obtain ⟨schema,hschema,h⟩ := bind_eq_ok.mp h
  obtain ⟨b,hb,h⟩ := bind_eq_ok.mp h
  obtain ⟨r,hr,h⟩ := bind_eq_ok.mp h
  obtain ⟨db,hcreate,h⟩ := bind_eq_ok.mp h
  obtain ⟨identifier,hidentifier,rfl⟩ := Repository.ofDescriptor_eq_ok hr
  exact ⟨d,schema,b,identifier,db,hd,hschema,hb,hidentifier,hcreate,h⟩

namespace Writing

variable {σ τ : Type}

/-- The same write over another store. -/
def withStore (w : Writing σ) (store : τ) : Writing τ := ⟨w.world, w.repository, w.entity, store⟩

@[simp]
theorem withStore_withStore {υ : Type} (w : Writing σ) (a : τ) (b : υ) :
    (w.withStore a).withStore b = w.withStore b := rfl

end Writing

namespace Write

variable {σ τ α β : Type}

/-- The result of a write and what it leaves. -/
def runOn (m : Write σ α) (w : Writing σ) : Except Error α × Writing σ := (ExceptT.run m).run w

theorem runOn_pure (a : α) (w : Writing σ) : runOn (pure a) w = (.ok a, w) := rfl

theorem runOn_bind (m : Write σ α) (f : α → Write σ β) (w : Writing σ) :
    runOn (m >>= f) w =
      match runOn m w with
      | (.ok a, w') => runOn (f a) w'
      | (.error e, w') => (.error e, w') := by
  simp only [runOn,ExceptT.run,bind,ExceptT.bind,ExceptT.mk,ExceptT.bindCont,StateT.run,StateT.bind]
  rcases m w with ⟨_ | _,_⟩ <;> rfl

theorem runOn_get (w : Writing σ) : runOn (get : Write σ (Writing σ)) w = (.ok w, w) := rfl

theorem runOn_ofExcept (x : Except Error α) (w : Writing σ) : runOn (ofExcept x) w = (x, w) := rfl

theorem runOn_act (action : Action α) (w : Writing σ) :
    runOn (act action) w = ((action.runIn w.world).1, { w with world := (action.runIn w.world).2 }) := rfl

theorem runOn_entityId (w : Writing σ) : runOn entityId w = (w.repository.entityId w.entity, w) := rfl

theorem runOn_record (w : Writing σ) :
    runOn record w =
      (((w.repository.descriptor.record w.entity).runIn w.world).1,
        { w with world := ((w.repository.descriptor.record w.entity).runIn w.world).2 }) := rfl

theorem runOn_tryCatch (m : Write σ α) (handle : Error → Write σ α) (w : Writing σ) :
    runOn (tryCatch m handle) w =
      match runOn m w with
      | (.ok a, w') => (.ok a, w')
      | (.error e, w') => runOn (handle e) w' := by
  simp only [runOn,tryCatch,tryCatchThe,MonadExceptOf.tryCatch,ExceptT.tryCatch,ExceptT.run,ExceptT.mk,bind,
    StateT.run,StateT.bind]
  rcases m w with ⟨_ | _,_⟩ <;> rfl

theorem runOn_call (name : String) (w : Writing σ) :
    runOn (call name) w =
      match w.entity with
      | .object o =>
        match (o.callMethod name).runIn w.world with
        | (.ok (o, reply), world) => (.ok reply, { w with world, entity := .object o })
        | (.error e, world) => (.error e, { w with world })
      | _ => (.error (.failure .attribute), w) := by
  rcases w with ⟨world,repository,entity,store⟩
  cases entity with
  | object o =>
    simp only [call,runOn_bind,runOn_get,runOn_act]
    rcases (o.callMethod name).runIn world with ⟨_ | ⟨o',reply⟩,world'⟩ <;> rfl
  | _ => rfl

theorem runOn_callIfAny (name : String) (w : Writing σ) :
    runOn (callIfAny name) w =
      if canCall w.entity name then ((runOn (call name) w).1.map some, (runOn (call name) w).2)
      else (.ok none, w) := by
  simp only [callIfAny,runOn_bind,runOn_get]
  cases canCall w.entity name with
  | false => rfl
  | true =>
    simp only [if_true,runOn_bind]
    rcases runOn (call name) w with ⟨_ | reply,w'⟩ <;> rfl

/-- What a write does leaves the repository, but for what it publishes. -/
def Binds (m : Write σ α) : Prop :=
  ∀ w, ∃ published, (runOn m w).2.repository = { w.repository with published }

theorem call_repository (name : String) (w : Writing σ) : (runOn (call name) w).2.repository = w.repository := by
  rcases w with ⟨world,repository,entity,store⟩
  rw [runOn_call]
  cases entity with
  | object o =>
    dsimp only
    rcases (o.callMethod name).runIn world with ⟨_ | ⟨o',reply⟩,world'⟩ <;> rfl
  | _ => rfl

theorem callIfAny_repository (name : String) (w : Writing σ) :
    (runOn (callIfAny name) w).2.repository = w.repository := by
  rw [runOn_callIfAny]
  split
  · exact call_repository name w
  · rfl

theorem binds_bind {m : Write σ α} {f : α → Write σ β} (hm : Binds m) (hf : ∀ a, Binds (f a)) :
    Binds (m >>= f) := by
  intro w
  obtain ⟨published,hpublished⟩ := hm w
  rw [runOn_bind]
  rcases hrun : runOn m w with ⟨e | a,w'⟩ <;> rw [hrun] at hpublished
  · exact ⟨published,hpublished⟩
  · obtain ⟨later,hlater⟩ := hf a w'
    dsimp only at hpublished ⊢
    rw [hpublished] at hlater
    exact ⟨later,hlater⟩

theorem binds_finish (hook : Option Hook) : Binds (finish hook : Write σ Unit) := by
  have hany (name : String) : Binds (callIfAny name : Write σ (Option Reply)) :=
    fun w => ⟨w.repository.published,callIfAny_repository name w⟩
  have hpure : Binds (pure () : Write σ Unit) := fun w => ⟨w.repository.published,rfl⟩
  have hpublish (events : List (Event Value)) : Binds (publish events : Write σ Unit) := by
    intro w
    rcases w with ⟨world,⟨d,identifier,hydrator,publisher,published⟩,entity,store⟩
    rcases publisher with _ | ⟨_ | _⟩
    · exact ⟨published,rfl⟩
    · exact ⟨published ++ [events],rfl⟩
    · exact ⟨published,rfl⟩
  have hpull : Binds (finish none : Write σ Unit) := by
    refine binds_bind (hany _) fun reply => ?_
    split
    · exact hpublish _
    · exact hpure
  cases hook with
  | none => exact hpull
  | some h => exact binds_bind (hany _) fun _ => hpull

/-- Setting the time of change back concerns the instance alone. -/
theorem restore_rest (touched : Bool) (previous : Value) (w : Writing σ) :
    (if touched then restore previous w else w).store = w.store ∧
      (if touched then restore previous w else w).repository = w.repository := by
  cases touched with
  | false => exact ⟨rfl,rfl⟩
  | true =>
    simp only [if_true,restore]
    split
    · split <;> exact ⟨rfl,rfl⟩
    · exact ⟨rfl,rfl⟩

/-- A change is made with the instance touched, if it can be; the time of change is set back on failure. -/
theorem runOn_touched (change : Write σ α) (w : Writing σ) :
    runOn (touched change) w =
      match runOn (callIfAny Hook.touch.name) w with
      | (.error e, w') => (.error e, w')
      | (.ok reply, w') =>
        match runOn change w' with
        | (.ok a, w'') => (.ok a, w'')
        | (.error e, w'') =>
          (.error e, if reply.isSome then restore (w.entity.attributeOrNull "updated_at") w'' else w'') := by
  simp only [touched,runOn_bind,runOn_get,runOn_callIfAny]
  cases canCall w.entity Hook.touch.name with
  | false =>
    simp only [Bool.false_eq_true,if_false]
    rcases runOn change w with ⟨_ | a,w'⟩ <;> rfl
  | true =>
    simp only [if_true,runOn_bind]
    rcases runOn (call Hook.touch.name) w with ⟨_ | reply,w'⟩
    · rfl
    · simp only [runOn_tryCatch,Except.map]
      rcases runOn change w' with ⟨_ | a,w''⟩ <;> rfl

/-- What a write does around the change of its store is the same over every store, and leaves the store. -/
def Uniform (m : ∀ σ : Type, Write σ α) : Prop :=
  ∀ (σ τ : Type) (w : Writing σ) (store : τ),
    runOn (m τ) (w.withStore store) = ((runOn (m σ) w).1, (runOn (m σ) w).2.withStore store)

theorem Uniform.store {m : ∀ σ : Type, Write σ α} (h : Uniform m) (w : Writing σ) :
    (runOn (m σ) w).2.store = w.store :=
  congrArg (·.2.store) (h σ σ w w.store)

theorem uniform_bind {m : ∀ σ : Type, Write σ α} {f : ∀ σ : Type, α → Write σ β} (hm : Uniform m)
    (hf : ∀ a, Uniform fun σ => f σ a) : Uniform fun σ => m σ >>= f σ := by
  intro σ τ w store
  rw [runOn_bind,runOn_bind,hm σ τ w store]
  rcases runOn (m σ) w with ⟨_ | a,w'⟩
  · rfl
  · exact hf a σ τ w' store

theorem uniform_pure (a : α) : Uniform fun _ => pure a := fun _ _ _ _ => rfl

theorem uniform_call (name : String) : Uniform fun _ => call name := by
  intro σ τ w store
  rcases w with ⟨world,repository,entity,_⟩
  simp only [runOn_call,Writing.withStore]
  cases entity with
  | object o =>
    dsimp only
    rcases (o.callMethod name).runIn world with ⟨_ | ⟨o',reply⟩,world'⟩ <;> rfl
  | _ => rfl

theorem uniform_callIfAny (name : String) : Uniform fun _ => callIfAny name := by
  intro σ τ w store
  rw [runOn_callIfAny,runOn_callIfAny,uniform_call name σ τ w store]
  change (if canCall w.entity name then _ else _) = _
  split <;> rfl

theorem uniform_publish (events : List (Event Value)) : Uniform fun _ => publish events := by
  intro σ τ w store
  rcases w with ⟨world,repository,entity,_⟩
  simp only [publish,runOn_bind,runOn_get,Writing.withStore]
  rcases repository.publisher with _ | ⟨_ | _⟩ <;> rfl

theorem uniform_finish (hook : Option Hook) : Uniform fun _ => finish hook := by
  have hpull : Uniform fun σ => finish (σ := σ) none := by
    refine uniform_bind (uniform_callIfAny _) fun reply => ?_
    split
    · exact uniform_publish _
    · exact uniform_pure _
  cases hook with
  | none => exact hpull
  | some h => exact uniform_bind (uniform_callIfAny _) fun _ => hpull

end Write

/-- How a store changes: what it does with the record of an identifier. -/
structure Adapter (σ : Type) where
  insert : Repository → String → Record → σ → Except Error σ
  /-- what is checked before an instance is touched -/
  ready : Repository → String → σ → Except Error Unit
  update : Repository → String → Record → σ → Except Error σ
  delete : Repository → String → σ → Except Error σ

/-- The writes that a repository offers. -/
inductive Operation
  | insert | update | delete
  deriving DecidableEq, Repr

namespace Operation

def onRecords : Operation → Write Records Unit
  | insert => Write.insertRecord
  | update => Write.updateRecord
  | delete => Write.deleteRecord

def onRows (b : TableBinding) : Operation → Write Database Unit
  | insert => Write.insertRow b
  | update => Write.updateRow b
  | delete => Write.deleteRow b

end Operation

/-- How records in memory change. -/
def Records.adapter : Adapter Records where
  insert r id record records := records.insert r.descriptor id record
  ready r id records := if records.contains id then .ok () else .error (.notFound r.descriptor.name id .update)
  update r id record records := records.update r.descriptor id record
  delete r id records := records.delete r.descriptor id

/-- How rows of a table change. -/
def TableBinding.adapter (b : TableBinding) : Adapter Database where
  insert r id record db := b.insert r.entity id record db
  ready _ _ _ := .ok ()
  update r id record db := b.update r.entity id record db
  delete r id db := b.delete r.entity id db

namespace Adapter

open Write

variable {σ : Type}

/-- A write through an adapter. -/
def write (a : Adapter σ) : Operation → Write σ Unit
  | .insert => do
    let id ← entityId
    let record ← record
    let w ← get
    keep (← Write.ofExcept (a.insert w.repository id record w.store))
    finish (some .create)
  | .update => do
    let id ← entityId
    let w ← get
    Write.ofExcept (a.ready w.repository id w.store)
    let store ← touched do Write.ofExcept (a.update w.repository id (← record) w.store)
    keep store
    finish none
  | .delete => do
    let id ← entityId
    let w ← get
    keep (← Write.ofExcept (a.delete w.repository id w.store))
    finish (some .delete)

theorem write_records (op : Operation) : Records.adapter.write op = op.onRecords := by
  cases op with
  | insert => rfl
  | delete => rfl
  | update =>
    refine bind_congr fun id => bind_congr fun w => ?_
    simp only [Records.adapter]
    cases w.store.contains id <;> rfl

theorem write_rows (b : TableBinding) (op : Operation) : b.adapter.write op = op.onRows b := by
  cases op <;> rfl

theorem runOn_insert (a : Adapter σ) (w : Writing σ) :
    runOn (a.write .insert) w =
      match w.repository.entityId w.entity with
      | .error e => (.error e, w)
      | .ok id =>
        match runOn record w with
        | (.error e, w') => (.error e, w')
        | (.ok record, w') =>
          match a.insert w.repository id record w.store with
          | .error e => (.error e, w')
          | .ok store => runOn (finish (some .create)) (w'.withStore store) := by
  simp only [write,runOn_bind,runOn_entityId]
  rcases w.repository.entityId w.entity with _ | id
  · rfl
  · simp only [runOn_record]
    rcases (w.repository.descriptor.record w.entity).runIn w.world with ⟨_ | record,world⟩
    · rfl
    · simp only [runOn_get,runOn_ofExcept]
      rcases a.insert w.repository id record w.store with _ | store <;> rfl

theorem runOn_update (a : Adapter σ) (w : Writing σ) :
    runOn (a.write .update) w =
      match w.repository.entityId w.entity with
      | .error e => (.error e, w)
      | .ok id =>
        match a.ready w.repository id w.store with
        | .error e => (.error e, w)
        | .ok _ =>
          match runOn (touched do Write.ofExcept (a.update w.repository id (← record) w.store)) w with
          | (.error e, w') => (.error e, w')
          | (.ok store, w') => runOn (finish none) (w'.withStore store) := by
  simp only [write,runOn_bind,runOn_entityId]
  rcases w.repository.entityId w.entity with _ | id
  · rfl
  · simp only [runOn_get,runOn_ofExcept]
    rcases a.ready w.repository id w.store with _ | _
    · rfl
    · dsimp only
      rcases runOn (touched do Write.ofExcept (a.update w.repository id (← record) w.store)) w with ⟨_ | _,_⟩ <;> rfl

theorem runOn_delete (a : Adapter σ) (w : Writing σ) :
    runOn (a.write .delete) w =
      match w.repository.entityId w.entity with
      | .error e => (.error e, w)
      | .ok id =>
        match a.delete w.repository id w.store with
        | .error e => (.error e, w)
        | .ok store => runOn (finish (some .delete)) (w.withStore store) := by
  simp only [write,runOn_bind,runOn_entityId]
  rcases w.repository.entityId w.entity with _ | id
  · rfl
  · simp only [runOn_get,runOn_ofExcept]
    rcases a.delete w.repository id w.store with _ | store <;> rfl

/-- The hook that follows a write. -/
def hookOf : Operation → Option Hook
  | .insert => some .create
  | .update => none
  | .delete => some .delete

/-- What a write finds out about the instance before it goes to the store; a removal needs no record. -/
def prepare : Operation → Write σ (String × Record)
  | .insert => do
    let id ← entityId
    return (id, ← record)
  | .update => do
    let id ← entityId
    let _ ← callIfAny Hook.touch.name
    return (id, ← record)
  | .delete => do return (← entityId, [])

/-- What an operation does to the store. -/
def change (a : Adapter σ) (op : Operation) (r : Repository) (id : String) (record : Record) (store : σ) :
    Except Error σ :=
  match op with
  | .insert => a.insert r id record store
  | .update => a.update r id record store
  | .delete => a.delete r id store

/-- Whether nothing is against an operation before the instance is touched. -/
def Ready (a : Adapter σ) (op : Operation) (w : Writing σ) : Prop :=
  op = .update → ∀ id, w.repository.entityId w.entity = .ok id → a.ready w.repository id w.store = .ok ()

variable {a : Adapter σ} {op : Operation} {w : Writing σ} {id : String} {record : Record} {e : Error}

theorem uniform_record : Uniform fun _ => Write.record := fun _ _ _ _ => rfl

theorem uniform_entityId : Uniform fun _ => entityId := fun _ _ _ _ => rfl

theorem uniform_prepare (op : Operation) : Uniform fun _ => prepare op := by
  cases op with
  | insert =>
    exact uniform_bind uniform_entityId fun _ => uniform_bind uniform_record fun _ => uniform_pure _
  | update =>
    exact uniform_bind uniform_entityId fun _ => uniform_bind (uniform_callIfAny _) fun _ =>
      uniform_bind uniform_record fun _ => uniform_pure _
  | delete => exact uniform_bind uniform_entityId fun _ => uniform_pure _

/-- Whether a write fails with an error and leaves store and repository. -/
def Refuses (m : Write σ Unit) (w : Writing σ) (e : Error) : Prop :=
  ∃ w', runOn m w = (.error e, w') ∧ w'.store = w.store ∧ w'.repository = w.repository

/-- An update that something is against leaves everything as it was. -/
theorem refuses_update (hid : w.repository.entityId w.entity = .ok id)
    (hready : a.ready w.repository id w.store = .error e) : Refuses (a.write .update) w e :=
  ⟨w,by simp only [runOn_update,hid,hready],rfl,rfl⟩

/-- How a write ends on a change of the store: it fails as the change did, or finishes on what that gave. -/
inductive Ends (m : Write σ Unit) (w w' : Writing σ) (hook : Option Hook) : Except Error σ → Prop
  | refused {e : Error} (h : Refuses m w e) : Ends m w w' hook (.error e)
  | finished {store : σ} (h : runOn m w = runOn (finish hook) (w'.withStore store)) : Ends m w w' hook (.ok store)

/-- A write prepares, then changes the store, then finishes; until it finishes, a failure leaves the store. -/
theorem write_spec (hready : a.Ready op w) :
    match (runOn (prepare op) w).1 with
    | .error e => Refuses (a.write op) w e
    | .ok (id, record) => Ends (a.write op) w (runOn (prepare op) w).2 (hookOf op)
        (a.change op w.repository id record w.store) := by
  have hrecord (v : Writing σ) : (runOn Write.record v).2.store = v.store ∧
      (runOn Write.record v).2.repository = v.repository := ⟨rfl,rfl⟩
  cases op with
  | insert =>
    simp only [prepare,runOn_bind,runOn_entityId,runOn_pure,change]
    rcases hid : w.repository.entityId w.entity with e | id
    · exact ⟨w,by rw [runOn_insert,hid],rfl,rfl⟩
    · have hrest := hrecord w
      rcases hrec : runOn Write.record w with ⟨e | record,w'⟩ <;> rw [hrec] at hrest <;> simp only [hrec]
      · exact ⟨w',by simp only [runOn_insert,hid,hrec],hrest⟩
      · rcases hchange : a.insert w.repository id record w.store with e | store
        · exact .refused ⟨w',by simp only [runOn_insert,hid,hrec,hchange],hrest⟩
        · exact .finished (by simp only [runOn_insert,hid,hrec,hchange,hookOf])
  | update =>
    simp only [prepare,runOn_bind,runOn_entityId,runOn_pure,change]
    rcases hid : w.repository.entityId w.entity with e | id
    · exact ⟨w,by rw [runOn_update,hid],rfl,rfl⟩
    · have hok := hready rfl id hid
      have htouched := And.intro ((uniform_callIfAny Hook.touch.name).store w)
        (callIfAny_repository Hook.touch.name w)
      rcases htouch : runOn (callIfAny Hook.touch.name) w with ⟨e | reply,w'⟩ <;> rw [htouch] at htouched <;>
        simp only [htouch]
      · exact ⟨w',by simp only [runOn_update,hid,hok,runOn_touched,htouch],htouched⟩
      · have hundone (v : Writing σ) (hv : v.store = w'.store ∧ v.repository = w'.repository) :=
          And.intro ((restore_rest reply.isSome (w.entity.attributeOrNull "updated_at") v).1.trans
            (hv.1.trans htouched.1)) ((restore_rest reply.isSome (w.entity.attributeOrNull "updated_at") v).2.trans
            (hv.2.trans htouched.2))
        have hrest := hrecord w'
        rcases hrec : runOn Write.record w' with ⟨e | record,w''⟩ <;> rw [hrec] at hrest <;> dsimp only
        · exact ⟨_,by simp only [runOn_update,hid,hok,runOn_touched,htouch,runOn_bind,hrec],hundone w'' hrest⟩
        · rcases hchange : a.update w.repository id record w.store with e | store
          · refine .refused ⟨_,?_,hundone w'' hrest⟩
            simp only [runOn_update,hid,hok,runOn_touched,htouch,runOn_bind,hrec,runOn_ofExcept,hchange]
          · refine .finished ?_
            simp only [runOn_update,hid,hok,runOn_touched,htouch,runOn_bind,hrec,runOn_ofExcept,hchange,hookOf]
  | delete =>
    simp only [prepare,runOn_bind,runOn_entityId,runOn_pure,change]
    rcases hid : w.repository.entityId w.entity with e | id
    · exact ⟨w,by rw [runOn_delete,hid],rfl,rfl⟩
    · dsimp only
      rcases hchange : a.delete w.repository id w.store with e | store
      · exact .refused ⟨w,by simp only [runOn_delete,hid,hchange],rfl,rfl⟩
      · exact .finished (by simp only [runOn_delete,hid,hchange,hookOf])

end Adapter

/-- One write of an instance, in a world of its own. -/
structure Call where
  operation : Operation
  entity : Value
  world : World

namespace Call

variable {σ : Type}

/-- What a call works on. -/
def writing (call : Call) (opened : Repository × σ) : Writing σ := ⟨call.world, opened.1, call.entity, opened.2⟩

/-- The answer of a call to a repository over a store, and what it leaves of both. -/
def on (call : Call) (writes : Operation → Write σ Unit) (opened : Repository × σ) :
    Except Error Unit × Repository × σ :=
  let (result, w) := Write.runOn (writes call.operation) (call.writing opened)
  (result, w.repository, w.store)

/-- What a series of calls leaves of a repository and its store. -/
def run (writes : Operation → Write σ Unit) (opened : Repository × σ) (calls : List Call) : Repository × σ :=
  calls.foldl (fun opened call => (call.on writes opened).2) opened

theorem on_refused {writes : Operation → Write σ Unit} {call : Call} {opened : Repository × σ} {e : Error}
    (h : Adapter.Refuses (writes call.operation) (call.writing opened) e) :
    call.on writes opened = (.error e, opened) := by
  obtain ⟨w',hrun,hstore,hrepository⟩ := h
  simp only [on,hrun,hstore,hrepository]
  rfl

/-- A call that gets to its end leaves the store that it was given there. -/
theorem on_finished {writes : Operation → Write σ Unit} {call : Call} {opened : Repository × σ}
    {hook : Option Hook} {w : Writing σ}
    (h : Write.runOn (writes call.operation) (call.writing opened) = Write.runOn (Write.finish hook) w) :
    call.on writes opened =
      ((Write.runOn (Write.finish hook) w).1, (Write.runOn (Write.finish hook) w).2.repository, w.store) := by
  simp only [on,h,(Write.uniform_finish hook).store w]

theorem run_keeps {writes : Operation → Write σ Unit} (motive : Repository × σ → Prop)
    (step : ∀ (call : Call) opened, motive opened → motive (call.on writes opened).2) {opened : Repository × σ}
    (start : motive opened) (calls : List Call) : motive (run writes opened calls) := by
  induction calls generalizing opened with
  | nil => exact start
  | cons call rest ih => exact ih (step call opened start)

end Call

end Trischema
