import Trischema.Repository.Tables

/-!
Connections to the tables of a repository. A statement outside a transaction takes effect by itself; inside one
it takes effect when the transaction is committed, and not at all when it is rolled back. The writes of a table
store go through a connection: insertions and updates in a transaction of their own, removals by themselves.
-/

namespace Trischema

structure Connection where
  committed : Database
  /-- the tables as the open transaction has changed them -/
  pending : Option Database := none

namespace Connection

/-- A connection without a transaction. -/
def opened (db : Database) : Connection := ⟨db, none⟩

/-- The tables that statements of this connection see. -/
def current (c : Connection) : Database := c.pending.getD c.committed

def isIdle (c : Connection) : Bool := c.pending.isNone

/-- Transactions do not nest. -/
def begin (c : Connection) : Except Error Connection :=
  match c.pending with
  | none => .ok { c with pending := some c.committed }
  | some _ => .error (.failure .statement)

def commit (c : Connection) : Except Error Connection :=
  match c.pending with
  | some db => .ok (opened db)
  | none => .error (.failure .statement)

def rollback (c : Connection) : Except Error Connection :=
  match c.pending with
  | some _ => .ok (opened c.committed)
  | none => .error (.failure .statement)

/-- Changes the tables that statements see. -/
def put (c : Connection) (db : Database) : Connection :=
  match c.pending with
  | some _ => { c with pending := some db }
  | none => opened db

end Connection

namespace TableBinding

/-- Sets the rows of an identifier to a record, and tells how many there are. -/
def setRecord (b : TableBinding) (entity id : String) (record : Record) (db : Database) :
    Except Error (Nat × Database) := do
  let primary ← b.primaryName
  let parameters ← parameters record b.columns
  let t ← db.table b.schema.name
  let cells ← b.writtenCells t parameters
  let rows := t.select [⟨primary, .text id⟩]
  if rows.isEmpty then return (0, db)
  match t.replaceAll cells rows with
  | .ok t => return (rows.length, db.setTable t)
  | .error e => .error (b.report entity e)

/-- Removes the rows of an identifier, and tells how many there were. -/
def removeRecord (b : TableBinding) (id : String) (db : Database) : Except Error (Nat × Database) := do
  let primary ← b.primaryName
  let t ← db.table b.schema.name
  let rows := t.select [⟨primary, .text id⟩]
  if rows.isEmpty then return (0, db)
  return (rows.length, db.setTable (t.remove rows))

end TableBinding

namespace Write

variable {α : Type}

/-- Changes the connection, or leaves it and fails. -/
def onConnection (change : Connection → Except Error Connection) : Write Connection Unit := do
  keep (← ofExcept (change (← get).store))

/-- Runs a statement on what the connection sees. -/
def execute (statement : Database → Except Error (α × Database)) : Write Connection α := do
  let c := (← get).store
  let (answer, db) ← ofExcept (statement c.current)
  keep (c.put db)
  return answer

/-- Runs statements in a transaction, which is rolled back when they fail. -/
def transaction (statements : Write Connection α) : Write Connection α := do
  onConnection Connection.begin
  tryCatch
    (do
      let answer ← statements
      onConnection Connection.commit
      return answer)
    fun e => do
      onConnection Connection.rollback
      fail e

/-- Puts the row of a new instance into the table. -/
def placeRow (b : TableBinding) : Write Connection Unit := do
  let id ← entityId
  let record ← record
  let entity := (← get).repository.entity
  transaction (execute fun db => (b.insert entity id record db).map ((), ·))

/-- Sets the row of an instance; that there is none is found out when the transaction is over. -/
def setRow (b : TableBinding) : Write Connection Unit := do
  let id ← entityId
  let entity := (← get).repository.entity
  touched do
    let record ← record
    let changed ← transaction (execute (b.setRecord entity id record))
    if changed = 0 then fail (.notFound entity id .update)

/-- Takes the row of an instance out of the table. -/
def dropRow (b : TableBinding) : Write Connection Unit := do
  let id ← entityId
  let entity := (← get).repository.entity
  let removed ← execute (b.removeRecord id)
  if removed = 0 then fail (.notFound entity id .deletion)

/-- Stores a new instance through a connection. -/
def insertThrough (b : TableBinding) : Write Connection Unit := do
  placeRow b
  finish (some .create)

/-- Replaces a stored instance through a connection. -/
def updateThrough (b : TableBinding) : Write Connection Unit := do
  setRow b
  finish none

/-- Removes a stored instance through a connection. -/
def deleteThrough (b : TableBinding) : Write Connection Unit := do
  dropRow b
  finish (some .delete)

end Write

end Trischema
