import Trischema.Proofs.Outcome
import Trischema.Proofs.Repository.Writing
import Trischema.Repository.Connections

/-!
Writes through a connection do what writes on its tables do. Between writes the connection is without a
transaction, whether they succeeded or not.
-/

namespace Trischema

namespace Adapter

open Write

variable {σ : Type}

/-- What a write does before the hook of the instance. -/
def storing (a : Adapter σ) : Operation → Write σ Unit
  | .insert => do
    let id ← entityId
    let record ← record
    let w ← get
    keep (← Write.ofExcept (a.insert w.repository id record w.store))
  | .update => do
    let id ← entityId
    let w ← get
    Write.ofExcept (a.ready w.repository id w.store)
    let store ← touched do Write.ofExcept (a.update w.repository id (← record) w.store)
    keep store
  | .delete => do
    let id ← entityId
    let w ← get
    keep (← Write.ofExcept (a.delete w.repository id w.store))

/-- A write stores, and then runs the hook and publishes. -/
theorem write_eq_storing (a : Adapter σ) (op : Operation) :
    a.write op = a.storing op >>= fun _ => finish (hookOf op) := by
  cases op <;> simp only [write,storing,bind_assoc,hookOf]

end Adapter

namespace Operation

open Write

/-- What a write through a connection does before the hook of the instance. -/
def storingThrough (b : TableBinding) : Operation → Write Connection Unit
  | insert => placeRow b
  | update => setRow b
  | delete => dropRow b

def onConnection (b : TableBinding) : Operation → Write Connection Unit
  | insert => insertThrough b
  | update => updateThrough b
  | delete => deleteThrough b

theorem onConnection_eq_storing (b : TableBinding) (op : Operation) :
    op.onConnection b = op.storingThrough b >>= fun _ => finish (Adapter.hookOf op) := by
  cases op <;> rfl

theorem onRecords_eq_storing (op : Operation) :
    op.onRecords = Records.adapter.storing op >>= fun _ => finish (Adapter.hookOf op) := by
  rw [← Adapter.write_records,Adapter.write_eq_storing]

end Operation

namespace Writing

/-- The same write through a new connection to its tables. -/
def connected (w : Writing Database) : Writing Connection := w.withStore (.opened w.store)

/-- The same write in a transaction that has changed nothing yet. -/
def begun (w : Writing Database) : Writing Connection := w.withStore { committed := w.store, pending := some w.store }

end Writing

namespace Write

variable {α : Type}

/-- What leaves the store is the same through a connection. -/
theorem Uniform.connected {m : ∀ σ : Type, Write σ α} (h : Uniform m) (w : Writing Database) :
    runOn (m Connection) w.connected = ((runOn (m Database) w).1, (runOn (m Database) w).2.connected) := by
  rw [Writing.connected,h Database Connection,Writing.connected,h.store]

theorem runOn_onConnection (change : Connection → Except Error Connection) (w : Writing Connection) :
    runOn (onConnection change) w =
      match change w.store with
      | .ok c => (.ok ⟨⟩, w.withStore c)
      | .error e => (.error e, w) := by
  simp only [onConnection,runOn_bind,runOn_get,runOn_ofExcept]
  cases change w.store <;> rfl

theorem runOn_execute (statement : Database → Except Error (α × Database)) (w : Writing Connection) :
    runOn (execute statement) w =
      match statement w.store.current with
      | .ok (answer, db) => (.ok answer, w.withStore (w.store.put db))
      | .error e => (.error e, w) := by
  simp only [execute,runOn_bind,runOn_get,runOn_ofExcept]
  cases statement w.store.current <;> rfl

/-- A statement in a transaction of its own takes effect as a whole or fails without any. -/
theorem runOn_transaction (statement : Database → Except Error (α × Database)) (w : Writing Database) :
    runOn (transaction (execute statement)) w.connected =
      match statement w.store with
      | .ok (answer, db) => (.ok answer, (w.withStore db).connected)
      | .error e => (.error e, w.connected) := by
  have hbegin : w.connected.store.begin = .ok w.begun.store := rfl
  have hbody := runOn_execute statement w.begun
  have hcurrent : w.begun.store.current = w.store := rfl
  have hbegun : w.connected.withStore w.begun.store = w.begun := rfl
  rw [hcurrent] at hbody
  simp only [transaction,runOn_bind,runOn_onConnection,runOn_tryCatch,hbegin,hbegun,hbody]
  cases statement w.store <;> rfl

end Write

namespace TableBinding

variable (b : TableBinding) (entity id : String) (db : Database)

/-- An update sets the rows of an identifier, of which there must be one. -/
theorem update_eq_setRecord (record : Record) : b.update entity id record db = (do
    let (changed, db) ← b.setRecord entity id record db
    if changed = 0 then .error (.notFound entity id .update) else .ok db) := by
  simp only [update,setRecord,bind_assoc]
  refine bind_congr fun primary => bind_congr fun ps => bind_congr fun t => bind_congr fun cells => ?_
  cases hrows : t.select [⟨primary, .text id⟩] with
  | nil => rfl
  | cons row rows =>
    cases t.replaceAll cells (row :: rows) with
    | error e => rfl
    | ok t => rfl

theorem delete_eq_removeRecord : b.delete entity id db = (do
    let (removed, db) ← b.removeRecord id db
    if removed = 0 then .error (.notFound entity id .deletion) else .ok db) := by
  simp only [delete,removeRecord,bind_assoc]
  refine bind_congr fun primary => bind_congr fun t => ?_
  cases t.select [⟨primary, .text id⟩] <;> rfl

/-- A statement that finds no row changes nothing. -/
theorem setRecord_none {entity id : String} {record : Record} {db db' : Database}
    (h : b.setRecord entity id record db = .ok (0, db')) : db' = db := by
  obtain ⟨primary,_,h⟩ := bind_eq_ok.mp h
  obtain ⟨ps,_,h⟩ := bind_eq_ok.mp h
  obtain ⟨t,_,h⟩ := bind_eq_ok.mp h
  obtain ⟨cells,_,h⟩ := bind_eq_ok.mp h
  cases hrows : t.select [⟨primary, .text id⟩] with
  | nil =>
    rw [hrows] at h
    cases h
    rfl
  | cons row rows =>
    rw [hrows] at h
    cases hreplace : t.replaceAll cells (row :: rows) with
    | error e => simp [hreplace] at h
    | ok t' => simp [hreplace,pure,Except.pure] at h

theorem removeRecord_none {id : String} {db db' : Database} (h : b.removeRecord id db = .ok (0, db')) : db' = db := by
  obtain ⟨primary,_,h⟩ := bind_eq_ok.mp h
  obtain ⟨t,_,h⟩ := bind_eq_ok.mp h
  cases hrows : t.select [⟨primary, .text id⟩] with
  | nil =>
    rw [hrows] at h
    cases h
    rfl
  | cons row rows => simp [hrows,pure,Except.pure] at h

end TableBinding

namespace Write

open Adapter

variable {σ : Type} (b : TableBinding)

theorem runOn_found (n : Nat) (e : Error) (w : Writing σ) :
    runOn (if n = 0 then fail e else pure ⟨⟩ : Write σ Unit) w = if n = 0 then (.error e, w) else (.ok ⟨⟩, w) := by
  split <;> rfl

theorem found_eq (n : Nat) (e : Error) (db : Database) (x : Except Error (Nat × Database)) (h : x = .ok (n, db)) :
    (do
      let (changed, db) ← x
      if changed = 0 then .error e else .ok db) = if n = 0 then (.error e : Except Error Database) else .ok db := by
  rw [h]
  rfl

theorem restore_connected (previous : Value) (w : Writing Database) :
    restore previous w.connected = (restore previous w).connected := by
  rcases w with ⟨world,repository,entity,store⟩
  cases entity with
  | object o =>
    simp only [restore,Writing.connected,Writing.withStore]
    split <;> rfl
  | _ => rfl

/-- A change that does on a connection what another one finds for its tables. -/
def Carries (change : Write Connection Unit) (found : Write Database Database) (w : Writing Database) : Prop :=
  runOn change w.connected =
    match runOn found w with
    | (.ok db, w') => (.ok ⟨⟩, (w'.withStore db).connected)
    | (.error e, w') => (.error e, w'.connected)

theorem carries_touched {change : Write Connection Unit} {found : Write Database Database} {w : Writing Database}
    (h : ∀ w' : Writing Database, w'.store = w.store → w'.repository = w.repository → Carries change found w') :
    Carries (touched change) (touched found) w := by
  have htouched := (uniform_callIfAny Hook.touch.name).connected w
  have hstore := (uniform_callIfAny Hook.touch.name).store w
  have hrepository := callIfAny_repository Hook.touch.name w
  rw [Carries,runOn_touched,runOn_touched,htouched]
  rcases hrun : runOn (callIfAny Hook.touch.name) w with ⟨result,w'⟩
  rw [hrun] at hstore hrepository
  cases result with
  | error e => rfl
  | ok reply =>
    have hchange := h w' hstore hrepository
    rw [Carries] at hchange
    dsimp only
    rw [hchange]
    rcases runOn found w' with ⟨result,w''⟩
    cases result with
    | ok db => rfl
    | error e =>
      dsimp only
      split
      · rw [← restore_connected]
        rfl
      · rfl

/-- Setting a row through a connection, inside the touch of its instance. -/
theorem carries_setRecord (entity id : String) (w : Writing Database) :
    Carries (do
        let record ← record
        let changed ← transaction (execute (b.setRecord entity id record))
        if changed = 0 then fail (.notFound entity id .update))
      (do Write.ofExcept (b.update entity id (← record) w.store)) w := by
  rw [Carries,runOn_bind,runOn_bind,uniform_record.connected]
  have hstore := uniform_record.store w
  rcases hrun : runOn record w with ⟨result,w'⟩
  rw [hrun] at hstore
  cases result with
  | error e => rfl
  | ok record =>
    dsimp only at hstore ⊢
    rw [runOn_bind,runOn_transaction,runOn_ofExcept,b.update_eq_setRecord,hstore]
    cases hset : b.setRecord entity id record w.store with
    | error e => rfl
    | ok answer =>
      obtain ⟨changed,db⟩ := answer
      dsimp only
      rw [runOn_found,found_eq changed _ db _ rfl]
      by_cases hnone : changed = 0
      · subst hnone
        rw [b.setRecord_none hset,← hstore]
        rfl
      · rw [if_neg hnone,if_neg hnone]

/-- Storing through a connection without a transaction is storing in its tables, and leaves it without one. -/
theorem runOn_storingThrough (op : Operation) (w : Writing Database) :
    runOn (op.storingThrough b) w.connected =
      ((runOn (b.adapter.storing op) w).1, (runOn (b.adapter.storing op) w).2.connected) := by
  cases op with
  | insert =>
    rw [Operation.storingThrough,placeRow,storing,runOn_bind,runOn_bind,uniform_entityId.connected,runOn_entityId]
    rcases w.repository.entityId w.entity with e | id
    · rfl
    · dsimp only
      rw [runOn_bind,runOn_bind,uniform_record.connected]
      rcases runOn record w with ⟨result,w'⟩
      cases result with
      | error e => rfl
      | ok record =>
        simp only [runOn_bind,runOn_get,runOn_transaction,runOn_ofExcept]
        rw [show w'.connected.repository = w'.repository from rfl,
          show b.adapter.insert w'.repository id record w'.store = b.insert w'.repository.entity id record w'.store from rfl]
        cases b.insert w'.repository.entity id record w'.store <;> rfl
  | update =>
    rw [Operation.storingThrough,setRow,storing,runOn_bind,runOn_bind,uniform_entityId.connected,runOn_entityId]
    rcases w.repository.entityId w.entity with e | id
    · rfl
    · have hset : Carries
          (touched do
            let record ← record
            let changed ← transaction (execute (b.setRecord w.repository.entity id record))
            if changed = 0 then fail (.notFound w.repository.entity id .update))
          (touched do Write.ofExcept (b.update w.repository.entity id (← record) w.store)) w :=
        carries_touched fun w' hstore _ => by
          rw [← hstore]
          exact carries_setRecord b w.repository.entity id w'
      have hready : b.adapter.ready w.repository id w.store = .ok ⟨⟩ := rfl
      dsimp only
      rw [runOn_bind,runOn_get,runOn_bind,runOn_get]
      dsimp only
      rw [runOn_bind,hready,runOn_ofExcept]
      dsimp only
      rw [runOn_bind]
      refine hset.trans ?_
      have hupdate : runOn (touched do Write.ofExcept (b.adapter.update w.repository id (← record) w.store)) w =
          runOn (touched do Write.ofExcept (b.update w.repository.entity id (← record) w.store)) w := rfl
      rw [hupdate]
      rcases runOn (touched do Write.ofExcept (b.update w.repository.entity id (← record) w.store)) w with ⟨result,w'⟩
      cases result <;> rfl
  | delete =>
    rw [Operation.storingThrough,dropRow,storing,runOn_bind,runOn_bind,uniform_entityId.connected,runOn_entityId]
    rcases w.repository.entityId w.entity with e | id
    · rfl
    · simp only [runOn_bind,runOn_get,runOn_execute,runOn_ofExcept]
      rw [show b.adapter.delete w.repository id w.store = b.delete w.repository.entity id w.store from rfl,
        b.delete_eq_removeRecord,show w.connected.store.current = w.store from rfl]
      cases hremove : b.removeRecord id w.store with
      | error e => rfl
      | ok answer =>
        obtain ⟨removed,db⟩ := answer
        dsimp only
        rw [runOn_found,found_eq removed _ db _ rfl]
        by_cases hnone : removed = 0
        · subst hnone
          rw [b.removeRecord_none hremove]
          rfl
        · rw [if_neg hnone,if_neg hnone]
          rfl

/-- Writes through a connection without a transaction are writes on its tables, and leave it without one. -/
theorem runOn_onConnection_connected (op : Operation) (w : Writing Database) :
    runOn (op.onConnection b) w.connected =
      ((runOn (op.onRows b) w).1, (runOn (op.onRows b) w).2.connected) := by
  rw [Operation.onConnection_eq_storing,← write_rows,write_eq_storing,runOn_bind,runOn_bind,runOn_storingThrough]
  rcases runOn (b.adapter.storing op) w with ⟨result,w'⟩
  cases result with
  | error e => rfl
  | ok _ => exact (uniform_finish (hookOf op)).connected w'

end Write

namespace Call

/-- A series of calls through a connection to tables leaves it without a transaction, to what they leave. -/
theorem run_connected (b : TableBinding) (r : Repository) (db : Database) (calls : List Call) :
    run (·.onConnection b) (r, .opened db) calls =
      ((run (·.onRows b) (r, db) calls).1, .opened (run (·.onRows b) (r, db) calls).2) := by
  induction calls generalizing r db with
  | nil => rfl
  | cons call rest ih =>
    have hcall : call.on (·.onConnection b) (r, .opened db) =
        ((call.on (·.onRows b) (r, db)).1, (call.on (·.onRows b) (r, db)).2.1,
          .opened (call.on (·.onRows b) (r, db)).2.2) := by
      have hrun := Write.runOn_onConnection_connected b call.operation (call.writing (r, db))
      have hconnected : (call.writing (r, db)).connected = call.writing (r, .opened db) := rfl
      rw [hconnected] at hrun
      rw [on,hrun]
      rfl
    rw [run,List.foldl_cons,hcall]
    exact ih _ _

end Call

end Trischema
