import Trischema.Table.Basic
import Trischema.Relational.Basic

/-!
Table definitions: columns of a relational schema in the words of a table engine. Names stand in double
quotes and texts in single ones, with the quote inside written twice.
-/

namespace Trischema

namespace ColumnType

/-- The kind of cell that holds a column type. -/
def affinity : ColumnType → Affinity
  | whole | truth => .integer
  | double => .real
  | bytes => .none
  | text | moment | date | document | array | other _ => .text

end ColumnType

namespace Definition

/-- A text between marks, with the mark inside written twice. -/
def enclosed (mark : Char) (s : String) : String :=
  String.ofList (mark :: s.toList.flatMap (fun c => if c = mark then [c, c] else [c]) ++ [mark])

/-- A name as a definition quotes it. -/
def quotedName (s : String) : String := enclosed Text.doubleMark s

/-- A text as a definition quotes it. -/
def quotedText (s : String) : String := enclosed Text.quoteMark s

/-- A value as a definition writes it: truth values as numbers, numbers bare, anything else as text. -/
def literal (v : Value) : String :=
  match v, v.number? with
  | .bool b, _ => if b then "1" else "0"
  | v, some (.int _) | v, some (.float _) => v.listing
  | v, _ => quotedText v.display

/-- What a written value is to the engine. -/
inductive Written
  | cell (c : Cell)
  /-- a bare word, which names nothing -/
  | word
  | malformed

/-- What the engine reads where a value is written. -/
def written (v : Value) : Written :=
  match v, v.number? with
  | .bool b, _ => .cell (.int (if b then 1 else 0))
  | .int n, _ => .cell (if Cell.fits n then .int n else .real (Binary64.ofInt n))
  | .float x, _ => if x.isFinite then .cell (.real x) else .word
  | _, some (.int _) | _, some (.float _) => .malformed
  | v, _ => .cell (.text v.display)

end Definition

namespace Column

/-- The restriction of a column to its values; serialized columns have none. -/
def restriction (c : Column) : Option (List Value) := if c.type.isSerialized then none else c.enum

/-- Whether a column must hold something. -/
def isRequired (c : Column) : Bool := c.primary || c.nullable == some false

/-- A column as a definition writes it. -/
def definition (c : Column) : String :=
  let name := Definition.quotedName c.name
  " ".intercalate (
    [name, c.type.affinity.typeName]
      ++ (if c.primary then ["PRIMARY KEY"] else [])
      ++ (if c.isRequired then ["NOT NULL"] else [])
      ++ (if c.unique && !c.primary then ["UNIQUE"] else [])
      ++ match c.restriction with
        | some vs => ["CHECK (" ++ name ++ " IN (" ++ ", ".intercalate (vs.map Definition.literal) ++ "))"]
        | none => [])

/-- The cells that a restriction allows. -/
def allowedCells (vs : List Value) : List Cell :=
  vs.filterMap fun v =>
    match Definition.written v with
    | .cell c => some c
    | _ => none

/-- A column as the engine keeps it. -/
def toTableColumn (c : Column) : TableColumn where
  name := c.name
  affinity := c.type.affinity
  primary := c.primary
  required := c.isRequired
  unique := c.unique && !c.primary
  allowed := c.restriction.map allowedCells

/-- Whether the restriction of a column holds a value that some engine reading rules out. -/
def restrictedTo (c : Column) (p : Definition.Written → Bool) : Bool :=
  (c.restriction.getD []).any fun v => p (Definition.written v)

end Column

/-- A table that is to be created. -/
structure TableDefinition where
  name : String
  columns : List Column
  together : List (List String)

namespace TableDefinition

/-- The statement that creates the table unless it exists. -/
def statement (d : TableDefinition) : String :=
  let keys := d.together.map fun g => "UNIQUE (" ++ ", ".intercalate (g.map Definition.quotedName) ++ ")"
  "CREATE TABLE IF NOT EXISTS " ++ Definition.quotedName d.name ++ " (\n    "
    ++ ",\n    ".intercalate (d.columns.map Column.definition ++ keys) ++ "\n)"

/-- Whether the statement can be read at all: it needs columns and no empty key. -/
def isReadable (d : TableDefinition) : Bool :=
  !d.columns.isEmpty && !d.together.any List.isEmpty
    && !d.columns.any (·.restrictedTo fun
      | .malformed => true
      | _ => false)

/-- Whether names that start so belong to the engine. -/
def isReserved (d : TableDefinition) : Bool := d.name.toLower.startsWith "sqlite_"

/-- Whether every name in the statement has one meaning. -/
def isMeaningful (d : TableDefinition) : Bool :=
  (d.columns.map (·.name.toLower)).eraseDups.length == d.columns.length
    && !d.columns.any (·.restrictedTo fun
      | .word => true
      | _ => false)

/-- The table without rows. -/
def empty (d : TableDefinition) : Table := ⟨d.name, d.columns.map Column.toTableColumn, d.together, []⟩

/-- Whether a text can stand in a statement. -/
def isText (s : String) : Bool := !s.toList.any (·.toNat == 0)

/-- Creates the table unless there is one of its name. -/
def create (d : TableDefinition) (db : Database) : Except Error Database :=
  if !isText d.statement then .error (.failure .binding)
  else if !d.isReadable || d.isReserved then .error (.failure .statement)
  else if (db.table? d.name).isSome then .ok db
  else if !d.isMeaningful then .error (.failure .statement)
  else .ok (db ++ [d.empty])

end TableDefinition

end Trischema
