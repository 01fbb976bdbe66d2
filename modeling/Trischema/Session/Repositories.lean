import Trischema.Session.Basic
import Trischema.Relational.Compiling

/-!
The repositories of a session: opening them over records or tables, and reading and writing through them.
A write advances the world, the storage and the instance that it writes, also when it fails.
-/

namespace Trischema

namespace Step

variable {α : Type}

/-- The repository of a name. -/
def repository (name : String) : Step OpenRepository := do
  match (← get).repositories.lookup name with
  | some r => return r
  | none => fail (.failure .key)

def keepRepository (name : String) (r : OpenRepository) : Step Unit :=
  modify fun s => { s with repositories := setNamed s.repositories name r }

/-- The descriptor of a class that is to be stored. -/
def openDescriptor (cls : TypeExpr Value) (publisher : Option Publisher) : Step Repository := do
  let d ← ofExcept (← serve (Serving.consult (.ask cls .answer)))
  ofExcept (Repository.ofDescriptor d publisher)

/-- Opens a repository that keeps records. -/
def openRecords (name : String) (cls : TypeExpr Value) (publisher : Option Publisher) : Step Repository := do
  let r ← openDescriptor cls publisher
  keepRepository name ⟨r, .records []⟩
  return r

/-- Where tables are kept: in a named file, or where the settings say. -/
def tablePlace (settings : Settings) : Option String → TablePlace
  | some file => .file file
  | none =>
    if settings.tablePath = Settings.memoryPath then .own (.opened [])
    else if settings.tablePath.isEmpty then .nowhere
    else .file settings.tablePath

/-- What opening a repository over a table answers, besides the warnings of the compiler. -/
structure OpenedTable where
  repository : Repository
  statement : String

/-- Opens a repository that keeps rows of a table. -/
def openTable (name : String) (cls : TypeExpr Value) (publisher : Option Publisher) (file : Option String) :
    Step (Warned OpenedTable) := do
  let r ← openDescriptor cls publisher
  let s ← get
  let settings ← ofExcept s.settings
  let compiled := Relational.compile s.registry s.settings cls none 0
  let bound := do TableBinding.ofSchema r.descriptor (← compiled.result)
  match bound with
  | .error e => return ⟨compiled.warnings, .error e⟩
  | .ok b => do
    keepRepository name ⟨r, .tables b (tablePlace settings file)⟩
    return ⟨compiled.warnings, .ok ⟨r, b.definition.statement⟩⟩

/-- The connection to the tables of a place: the one that is kept there, or a new one. -/
def connect : TablePlace → Step Connection
  | .own connection => return connection
  | .file name => do return .opened (((← get).files.lookup name).getD [])
  | .nowhere => return .opened []

/-- The tables of a place, as its connection sees them. -/
def tablesAt (place : TablePlace) : Step Database := do return (← connect place).current

/-- Leaves a connection to a place. What was not committed is lost unless the connection is kept. -/
def disconnect (connection : Connection) : TablePlace → Step TablePlace
  | .own _ => return .own connection
  | .file name => do
    modify fun s => { s with files := setNamed s.files name connection.committed }
    return .file name
  | .nowhere => return .nowhere

/-- The binding and the tables of a repository; one that keeps records has none. -/
def tables (name : String) : Step (TableBinding × TablePlace) := do
  match (← repository name).storage with
  | .tables b place => return (b, place)
  | .records _ => fail (.failure .attribute)

/-- Creates the table of a repository unless there is one. -/
def createTable (name : String) : Step Unit := do
  let (b, place) ← tables name
  let connection ← connect place
  let db ← ofExcept (b.definition.create connection.current)
  let place ← disconnect (connection.put db) place
  keepRepository name { ← repository name with storage := .tables b place }

/-- Closes a repository, which forgets the tables that it keeps itself. -/
def closeTables (name : String) : Step Unit := do
  let (b, place) ← tables name
  match place with
  | .own _ => keepRepository name { ← repository name with storage := .tables b (.own (.opened [])) }
  | _ => return ()

/-- The rows of a repository as they are stored, by column names. -/
def storedRows (name : String) : Step (List Value) := do
  let (b, place) ← tables name
  let t ← ofExcept ((← tablesAt place).table b.schema.name)
  return t.rows.map fun row => .keyed (t.columns.zip row.cells |>.map fun (c, cell) => (c.name, cell.toValue))

/-- How a repository turns records into answers. -/
def setHydrator (name : String) (h : Hydrator) : Step Unit := do
  let r ← repository name
  keepRepository name { r with repository := { r.repository with hydrator := some h } }

/-- Puts a written instance and the world after the write into the session. -/
def settle (world : World) (entity : Value) : Step Unit :=
  modify fun s =>
    let s := { s with world }
    match entity with
    | .object o => s.renew o
    | _ => s

/-- Runs a write on the storage of a repository. -/
def write (name : String) (entity : Value) (onRecords : Write Records Unit)
    (onTables : TableBinding → Write Connection Unit) : Step Unit := do
  let r ← repository name
  let world := (← get).world
  match r.storage with
  | .records records => do
    let (result, w) := (ExceptT.run onRecords).run ⟨world, r.repository, entity, records⟩
    keepRepository name ⟨w.repository, .records w.store⟩
    settle w.world w.entity
    ofExcept result
  | .tables b place => do
    let (result, w) := (ExceptT.run (onTables b)).run ⟨world, r.repository, entity, ← connect place⟩
    let place ← disconnect w.store place
    keepRepository name ⟨w.repository, .tables b place⟩
    settle w.world w.entity
    ofExcept result

def insert (name : String) (entity : Value) : Step Unit := write name entity Write.insertRecord Write.insertThrough

def update (name : String) (entity : Value) : Step Unit := write name entity Write.updateRecord Write.updateThrough

def delete (name : String) (entity : Value) : Step Unit := write name entity Write.deleteRecord Write.deleteThrough

/-- Reads from the storage of a repository. -/
def read (name : String) (fromRecords : Repository → Records → Except Error α)
    (fromTables : Repository → TableBinding → Database → Except Error α) : Step α := do
  let r ← repository name
  match r.storage with
  | .records records => ofExcept (fromRecords r.repository records)
  | .tables b place => do ofExcept (fromTables r.repository b (← tablesAt place))

def findAll (name : String) : Step (List Value) := read name Repository.allRecords Repository.allRows

def find (name : String) (id : Value) : Step Value :=
  read name (fun r records => r.findRecord records id) fun r b db => r.findRow b db id

/-- Whole records in the order of the texts of their identifiers. -/
def listById (r : Repository) (found : List Value) : List Value :=
  let idText (v : Value) : String := ((Repository.recordOf v).field r.identifier.key).display
  found.mergeSort fun a b => compareText (idText a) (idText b) != .gt

/-- Searches a repository. The engine promises no order of the rows that it finds, so that a session lists whole records
of a table by their identifiers. -/
def search (name : String) (query : Value) : Step (List Value) := do
  let found ← read name (fun r records => r.searchRecords records query) fun r b db => r.searchRows b db query
  let ⟨r, storage⟩ ← repository name
  match storage, r.hydrator with
  | .tables .., some .whole => return listById r found
  | _, _ => return found

def aggregate (name : String) (selection : Repository.Selection) : Step (List Value) :=
  read name (fun r records => r.aggregateRecords records selection) fun r b db => r.aggregateRows b db selection

end Step

end Trischema
