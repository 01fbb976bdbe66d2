import Trischema.Table.Cell

/-!
Tables: columns, keys that must be unique, and rows in the order of their numbers. A row is admitted when
its number fits, no required cell is missing, every restricted cell has an allowed value and no unique
key is taken; the first of these that fails is reported.
-/

namespace Trischema

/-- A column as a table defines it. -/
structure TableColumn where
  name : String
  affinity : Affinity
  primary : Bool
  required : Bool
  unique : Bool
  /-- the values that the column is restricted to -/
  allowed : Option (List Cell)
  deriving DecidableEq, Repr

/-- A row with its number. -/
structure Row where
  number : Int
  cells : List Cell
  deriving DecidableEq, Repr

structure Table where
  name : String
  columns : List TableColumn
  /-- composite unique keys, by column names -/
  together : List (List String)
  rows : List Row
  deriving DecidableEq, Repr

/-- Whether two names are the same but for the case of Latin letters. -/
def sameName (a b : String) : Bool := a.toLower == b.toLower

namespace TableColumn

/-- Whether the column holds the numbers of the rows. -/
def numbersRows (c : TableColumn) : Bool := c.primary && c.affinity == .integer

/-- Whether a cell is missing where there must be one. -/
def lacks (c : TableColumn) (cell : Cell) : Bool := c.required && !c.numbersRows && cell == .null

/-- Whether the column admits a cell; no value satisfies a restriction to no values. -/
def admits (c : TableColumn) (cell : Cell) : Bool :=
  match c.allowed with
  | none => true
  | some [] => false
  | some cells => cell == .null || cells.any (cell.holds c.affinity)

end TableColumn

namespace Table

/-- The position of a column. -/
def position? (t : Table) (name : String) : Option Nat := t.columns.findIdx? (sameName ·.name name)

/-- The position of the column that holds the numbers of the rows. -/
def numberPosition? (t : Table) : Option Nat := t.columns.findIdx? (·.numbersRows)

/-- The unique keys of a table as positions, in the order in which they are declared. The column of row
numbers is checked by itself. -/
def declaredKeys (t : Table) : List (List Nat) :=
  let single := (t.columns.zipIdx.filter fun (c, _) => !c.numbersRows && (c.primary || c.unique)).map
    fun (_, i) => [i]
  (single ++ t.together.map fun g => g.filterMap t.position?).eraseDups

/-- The unique keys in the order in which they are checked: the last declared comes first. -/
def keys (t : Table) : List (List Nat) := t.declaredKeys.reverse

/-- The cell of a row at a position. -/
def cellAt (cells : List Cell) (i : Nat) : Cell := cells.getD i .null

/-- Whether two rows are equal on a key. -/
def collide (key : List Nat) (a b : List Cell) : Bool :=
  key.all fun i => (cellAt a i).same (cellAt b i)

/-- The names of the columns at some positions. -/
def columnNames (t : Table) (key : List Nat) : List String :=
  key.filterMap fun i => t.columns[i]?.map (·.name)

/-- The first unique key on which a row collides with one of the others. -/
def takenKey? (t : Table) (others : List Row) (cells : List Cell) : Option (List Nat) :=
  t.keys.find? fun key => others.any fun r => collide key r.cells cells

/-- The number of a row that is given none. -/
def nextNumber (t : Table) : Int := t.rows.foldl (fun n r => max n (r.number + 1)) 1

/-- The number that a row has by its cells, if the table numbers rows by a column. -/
def numberOf (given : Int) : Cell → Except Error Int
  | .null => .ok given
  | .int n => .ok n
  | _ => .error (.integrity .datatype)

/-- The first column that lacks a cell. -/
def missing? (t : Table) (cells : List Cell) : Option TableColumn :=
  ((t.columns.zip cells).find? fun (c, cell) => c.lacks cell).map (·.1)

/-- The first column that does not admit its cell. -/
def refusing? (t : Table) (cells : List Cell) : Option TableColumn :=
  ((t.columns.zip cells).find? fun (c, cell) => !c.admits cell).map (·.1)

/-- Checks a row against the columns and against other rows. -/
def check (t : Table) (others : List Row) (row : Row) : Except Error Unit := do
  if let some c := t.missing? row.cells then .error (.integrity (.notNull t.name c.name))
  if let some c := t.refusing? row.cells then .error (.integrity (.check c.name))
  if let some i := t.numberPosition? then
    if others.any fun r => r.number == row.number then
      .error (.integrity (.unique t.name (t.columnNames [i])))
  if let some key := t.takenKey? others row.cells then
    .error (.integrity (.unique t.name (t.columnNames key)))

/-- Puts a row where its number says. -/
def place (rows : List Row) (row : Row) : List Row :=
  rows.takeWhile (·.number < row.number) ++ row :: rows.dropWhile (·.number < row.number)

/-- What the columns keep of the given cells. -/
def storeCells (t : Table) (cells : List Cell) : List Cell :=
  (t.columns.zip cells).map fun (c, cell) => cell.stored c.affinity

/-- The positions of named columns, all of which must exist. -/
def positions (t : Table) : List String → Except Error (List Nat)
  | [] => .ok []
  | name :: names => do
    let some i := t.position? name | .error (.failure .statement)
    return i :: (← positions t names)

/-- Cells with new ones at some positions. -/
def setCells (cells : List Cell) (named : List (Nat × Cell)) : List Cell :=
  named.foldl (fun cs (i, c) => cs.set i c) cells

/-- A row of a number, as its cells say where the table numbers rows by a column. -/
def numbered (t : Table) (given : Int) (cells : List Cell) : Except Error Row :=
  match t.numberPosition? with
  | none => .ok ⟨given, cells⟩
  | some i => do
    let n ← numberOf given (cellAt cells i)
    return ⟨n, cells.set i (.int n)⟩

/-- Adds a row of named cells; cells that are not named are empty. -/
def insert (t : Table) (named : List (Nat × Cell)) : Except Error Table := do
  let cells := t.storeCells (setCells (t.columns.map fun _ => .null) named)
  let row ← t.numbered t.nextNumber cells
  t.check t.rows row
  return { t with rows := place t.rows row }

/-- A condition on a row: the column of a name is equal to a cell. A name of no column stands for its own
text. -/
structure Condition where
  name : String
  cell : Cell
  deriving DecidableEq, Repr

/-- Whether a row meets a condition. -/
def meets (t : Table) (row : Row) (c : Condition) : Bool :=
  match t.position? c.name with
  | none => (Cell.text c.name).same c.cell
  | some i =>
    match t.columns[i]? with
    | some column => (cellAt row.cells i).holds column.affinity c.cell
    | none => false

/-- The rows that meet all conditions. -/
def select (t : Table) (conditions : List Condition) : List Row :=
  t.rows.filter fun row => conditions.all (t.meets row)

/-- Sets cells of one row. -/
def replace (t : Table) (old : Row) (named : List (Nat × Cell)) : Except Error Table := do
  let cells := t.storeCells (setCells old.cells named)
  let row ← match t.numberPosition? with
    | some i => if cellAt cells i == .null then .error (.integrity .datatype) else t.numbered old.number cells
    | none => t.numbered old.number cells
  let others := t.rows.filter (·.number != old.number)
  t.check others row
  return { t with rows := place others row }

/-- Sets cells of several rows, one after another. -/
def replaceAll (t : Table) (named : List (Nat × Cell)) : List Row → Except Error Table
  | [] => .ok t
  | row :: rows => do replaceAll (← t.replace row named) named rows

/-- Removes rows by their numbers. -/
def remove (t : Table) (rows : List Row) : Table :=
  { t with rows := t.rows.filter fun r => !rows.any (·.number == r.number) }

end Table

/-- Tables by name. -/
abbrev Database := List Table

namespace Database

def table? (db : Database) (name : String) : Option Table := db.find? (sameName ·.name name)

/-- The table of a name, which must exist. -/
def table (db : Database) (name : String) : Except Error Table :=
  match db.table? name with
  | some t => .ok t
  | none => .error (.failure .statement)

/-- Replaces the table of the same name. -/
def setTable (db : Database) (t : Table) : Database := db.map fun u => if sameName u.name t.name then t else u

end Database

end Trischema
