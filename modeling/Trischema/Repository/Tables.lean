import Trischema.Repository.Basic
import Trischema.Text.Splitting
import Trischema.Relational.Compiling
import Trischema.Table.Definition
import Trischema.Table.Encoding
import Trischema.Backend

/-!
The table store keeps instances as rows of one table. Owning relations to one target keep the identifier
of the target in their join column; all other relations are not stored. The engine checks keys and
restrictions, and a taken key is reported by the properties that it stores.
-/

namespace Trischema

/-- How the properties of a class are kept in a table. -/
structure TableBinding where
  schema : Relational
  /-- the column of each stored property, in the order of the properties -/
  columns : List (String × Column)

namespace TableBinding

/-- The join column of an owning relation to one target. -/
def joinColumn? (t : Relational) (key : String) : Option Column :=
  ((t.relation? key).bind (·.joinColumn)).map fun j =>
    { name := match j with
        | .named name => name
        | .byConvention => key ++ "_id"
      type := .text
      nullable := some true }

/-- The column of a property that is no relationship. -/
def columnFor (t : Relational) (p : Property) : Except Error Column :=
  match t.column? p.key, p.isIdentifier, t.primaryKey? with
  | some c, _, _ | none, true, some c => .ok c
  | _, _, _ => .error (.failure .key)

/-- The columns of properties, in their order. -/
def columnsFor (t : Relational) : List Property → Except Error (List (String × Column))
  | [] => .ok []
  | p :: ps =>
    if p.isRelationship then do
      let rest ← columnsFor t ps
      return (joinColumn? t p.key).toList.map (fun c => (p.key, c)) ++ rest
    else do
      let c ← columnFor t p
      return (p.key, c) :: (← columnsFor t ps)

/-- Binds the properties of a class to the columns of its table. -/
def ofSchema (d : Descriptor) (t : Relational) : Except Error TableBinding := do
  return ⟨t, ← columnsFor t d.properties⟩

/-- The table of a class as it is created. -/
def definition (b : TableBinding) : TableDefinition :=
  ⟨b.schema.name, b.columns.map (·.2), b.schema.together⟩

/-- The name of the column of the identifier. -/
def primaryName (b : TableBinding) : Except Error String :=
  match b.schema.primaryKey? with
  | some c => .ok c.name
  | none => .error (.failure .attribute)

/-- What is bound for a record. -/
def parameters (record : Record) : List (String × Column) → Except Error (List Value)
  | [] => .ok []
  | (key, c) :: cs => do
    let v ← c.encode (record.field key)
    return v :: (← parameters record cs)

/-- The cells that a record is written to. -/
def writtenCells (b : TableBinding) (t : Table) (parameters : List Value) :
    Except Error (List (Nat × Cell)) := do
  let positions ← t.positions (b.columns.map (·.2.name))
  return positions.zip (← Cell.ofValues parameters)

/-- The record of a row. -/
def recordOf (t : Table) (row : Row) : List (String × Column) → Except Error Record
  | [] => .ok []
  | (key, c) :: cs => do
    let some i := t.position? c.name | .error (.failure .index)
    let v ← c.decode (Table.cellAt row.cells i).toValue
    return (key, v) :: (← recordOf t row cs)

/-- The records of rows. -/
def recordsOf (b : TableBinding) (t : Table) (rows : List Row) : Except Error (List Record) :=
  rows.mapM fun row => recordOf t row b.columns

/-- The property that a column stores. -/
def keyOf (b : TableBinding) (column : String) : String :=
  match b.columns.reverse.find? fun (_, c) => c.name == column with
  | some (key, _) => key
  | none => column

/-- What follows the first point of a text, or all of it where there is none. -/
def afterPoint (cs : List Char) : List Char := (Text.cutAt '.' cs).2.getD cs

/-- The properties of a taken key, read off its columns as they are listed. -/
def takenKeys (b : TableBinding) (listed : List Char) : List String :=
  (Text.splitAll ',' listed).map fun part => b.keyOf (String.ofList (afterPoint (Text.trimBlanks part)))

/-- A text of one line, without the line end that may follow it. -/
def line? (cs : List Char) : Option (List Char) :=
  if !cs.contains '\n' then some cs
  else if cs.getLast? = some '\n' && !cs.dropLast.contains '\n' then some cs.dropLast
  else none

/-- What stands before the columns of a taken key in the wording of a failure. -/
def takenMark : List Char := "UNIQUE constraint failed: ".toList

/-- The columns that a failure lists: what follows the first of these marks with one line after it. -/
def listed? : List Char → Option (List Char)
  | [] => none
  | c :: cs =>
    match (takenMark.isPrefixOf? (c :: cs)).bind line? with
    | some (first :: rest) => some (first :: rest)
    | _ => listed? cs

/-- The report of a failed write. It names properties where the wording of the engine lists columns on its
last line. -/
def report (b : TableBinding) (entity : String) (e : Error) : Error :=
  match e with
  | .integrity fault =>
    match listed? fault.message.toList with
    | some listed => .collision (.fields entity (b.takenKeys listed))
    | none => e
  | e => e

/-- Adds the row of a record. -/
def insert (b : TableBinding) (entity id : String) (record : Record) (db : Database) :
    Except Error Database := do
  let primary ← b.primaryName
  let t ← db.table b.schema.name
  if !(t.select [⟨primary, .text id⟩]).isEmpty then .error (.alreadyExists entity id)
  let parameters ← parameters record b.columns
  let cells ← b.writtenCells t parameters
  match t.insert cells with
  | .ok t => return db.setTable t
  | .error e => .error (b.report entity e)

/-- Sets the row of an identifier to a record. -/
def update (b : TableBinding) (entity id : String) (record : Record) (db : Database) :
    Except Error Database := do
  let primary ← b.primaryName
  let parameters ← parameters record b.columns
  let t ← db.table b.schema.name
  let cells ← b.writtenCells t parameters
  let rows := t.select [⟨primary, .text id⟩]
  if rows.isEmpty then .error (.notFound entity id .update)
  match t.replaceAll cells rows with
  | .ok t => return db.setTable t
  | .error e => .error (b.report entity e)

/-- Removes the row of an identifier. -/
def delete (b : TableBinding) (entity id : String) (db : Database) : Except Error Database := do
  let primary ← b.primaryName
  let t ← db.table b.schema.name
  let rows := t.select [⟨primary, .text id⟩]
  if rows.isEmpty then .error (.notFound entity id .deletion)
  return db.setTable (t.remove rows)

/-- The conditions of a query. A relation without a join column cannot be searched. -/
def conditions (b : TableBinding) (entity : String) :
    List (Value × Value) → Except Error (List (String × Value))
  | [] => .ok []
  | (key, v) :: es => do
    let some c := key.text?.bind fun k => b.columns.lookup k | .error (.missing (.joinColumn entity key))
    let parameter ← c.encode v
    return (c.name, parameter) :: (← conditions b entity es)

/-- The records that meet conditions. -/
def search (b : TableBinding) (db : Database) (conditions : List (String × Value)) :
    Except Error (List Record) := do
  let t ← db.table b.schema.name
  let cells ← Cell.ofValues (conditions.map (·.2))
  b.recordsOf t (t.select ((conditions.zip cells).map fun ((name, _), cell) => ⟨name, cell⟩))

/-- All records. -/
def all (b : TableBinding) (db : Database) : Except Error (List Record) := b.search db []

end TableBinding

namespace Write

/-- Stores a new instance. -/
def insertRow (b : TableBinding) : Write Database Unit := do
  let id ← entityId
  let record ← record
  let w ← get
  keep (← ofExcept (b.insert w.repository.entity id record w.store))
  finish (some .create)

/-- Replaces a stored instance. -/
def updateRow (b : TableBinding) : Write Database Unit := do
  let id ← entityId
  let w ← get
  let store ← touched do ofExcept (b.update w.repository.entity id (← record) w.store)
  keep store
  finish none

/-- Removes a stored instance. -/
def deleteRow (b : TableBinding) : Write Database Unit := do
  let id ← entityId
  let w ← get
  keep (← ofExcept (b.delete w.repository.entity id w.store))
  finish (some .delete)

end Write

namespace Repository

/-- All stored instances. -/
def allRows (r : Repository) (b : TableBinding) (db : Database) : Except Error (List Value) := do
  r.requireHydrator
  r.hydrateAll (← b.all db)

/-- The instance of an identifier, or `null`. -/
def findRow (r : Repository) (b : TableBinding) (db : Database) (id : Value) : Except Error Value := do
  r.requireHydrator
  let primary ← b.primaryName
  match ← b.search db [(primary, .str id.display)] with
  | record :: _ => r.hydrate record
  | [] => return .null

/-- The instances that are as a query says. -/
def searchRows (r : Repository) (b : TableBinding) (db : Database) (query : Value) :
    Except Error (List Value) := do
  r.requireHydrator
  let conditions ← b.conditions r.entity (← r.queryEntries query)
  r.hydrateAll (← b.search db conditions)

/-- The instances that a selection answers. -/
def aggregateRows (r : Repository) (b : TableBinding) (db : Database) (selection : Selection) :
    Except Error (List Value) := do
  r.requireHydrator
  r.aggregate (← b.all db) selection

end Repository

end Trischema
