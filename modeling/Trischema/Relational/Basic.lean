import Trischema.Property.Basic
import Trischema.Value.Keyed

/-!
Relational schemas: the columns of a table and the relations to other tables. The types of columns are
names that no engine owns; embedded values and arrays are one column each, and past the depth limit a
schema is a placeholder without columns.
-/

namespace Trischema

/-- The types of columns. -/
inductive ColumnType
  | text | whole | double | truth | moment | date | bytes
  /-- a serialized document -/
  | document
  /-- an array of scalars -/
  | array
  | other (name : String)
  deriving DecidableEq, Repr

namespace ColumnType

def name : ColumnType → String
  | text => "varchar" | whole => "bigint" | double => "double precision" | truth => "boolean"
  | moment => "timestamptz" | date => "date" | bytes => "bytea" | document => "jsonb"
  | array => "simple-array" | other s => s

/-- The types with a meaning of their own. -/
def all : List ColumnType := [text, whole, double, truth, moment, date, bytes, document, array]

def ofName (s : String) : ColumnType := (all.find? (·.name == s)).getD (other s)

/-- The type of a column that holds a scalar. -/
def ofScalar : Scalar → ColumnType
  | .string => text
  | .integer => whole
  | .float => double
  | .boolean => truth
  | .datetime => moment
  | .date => date
  | .bytes => bytes
  | .object => document

/-- Whether values of the type are kept as the text of a document. -/
def isSerialized : ColumnType → Bool
  | document | array => true
  | _ => false

end ColumnType

/-- A column of a table. -/
structure Column where
  name : String
  type : ColumnType
  nullable : Option Bool := none
  unique : Bool := false
  primary : Bool := false
  enum : Option (List Value) := none
  default : Option Value := none
  /-- how the engine makes the values of a primary key -/
  generated : Option String := none
  /-- the type of the elements of an array -/
  elements : Option ColumnType := none

namespace Column

def toRecord (c : Column) : Value := .record (
  [("type", .str c.type.name)]
    ++ optionalEntry "nullable" .bool c.nullable
    ++ flagEntry "unique" c.unique
    ++ flagEntry "primary" c.primary
    ++ optionalEntry "enum" .list c.enum
    ++ optionalEntry "default" Value.rendered c.default
    ++ optionalEntry "generated" .str c.generated
    ++ optionalEntry "array_of" (fun t => .str (ColumnType.name t)) c.elements)

end Column

/-- The column on the owning side of a relation to one target. -/
inductive JoinColumn
  | byConvention
  | named (name : String)
  deriving DecidableEq, Repr

/-- The table of a relation between many and many. -/
inductive JoinTable
  | byConvention
  | custom (name : Option Value) (columns : Option (String × String))

namespace JoinColumn

def toValue : JoinColumn → Value
  | byConvention => .bool true
  | named name => .record [("name", .str name)]

end JoinColumn

namespace JoinTable

def toValue : JoinTable → Value
  | byConvention => .bool true
  | custom name columns => .record (
      optionalEntry "name" id name
        ++ match columns with
          | some (near, far) => [
              ("join_column", (JoinColumn.named near).toValue),
              ("inverse_join_column", (JoinColumn.named far).toValue)]
          | none => [])

end JoinTable

/-- A relation to another table; the join configuration stands on the owning side only. -/
structure Relation where
  name : String
  kind : Choice Cardinality Value
  target : String
  inverse : Value
  cascade : Cascade
  eager : Bool
  joinColumn : Option JoinColumn
  joinTable : Option JoinTable

namespace Relation

def toRecord (r : Relation) : Except Error Value := do
  let kind ← r.kind.toValue Cardinality.text
  return .record (
    [("type", kind), ("target", .str r.target), ("inverse_side", r.inverse), ("cascade", r.cascade.toValue),
      ("eager", .bool r.eager)]
      ++ optionalEntry "join_column" JoinColumn.toValue r.joinColumn
      ++ optionalEntry "join_table" JoinTable.toValue r.joinTable)

end Relation

/-- The table of a class. -/
structure Relational where
  name : String
  columns : List Column
  relations : List Relation
  /-- composite keys, by column names -/
  together : List (List String)
  isPlaceholder : Bool

namespace Relational

/-- The name that stands for a class past the depth limit, and for no class. -/
def placeholderName : String := "EmptyEntity"

def placeholder : Relational := ⟨placeholderName, [], [], [], true⟩

def isEmpty (t : Relational) : Bool := t.columns.isEmpty && t.relations.isEmpty

def column? (t : Relational) (name : String) : Option Column := t.columns.find? (·.name == name)

def relation? (t : Relational) (name : String) : Option Relation := t.relations.find? (·.name == name)

def columnNames (t : Relational) : List String := t.columns.map (·.name)

def primaryKey? (t : Relational) : Option Column := t.columns.find? (·.primary)

/-- The columns that hold documents. -/
def documentColumns (t : Relational) : List String :=
  (t.columns.filter fun c => c.type == .document).map (·.name)

/-- The exports of relations under their names. -/
def relationRecords : List Relation → Except Error (List (String × Value))
  | [] => .ok []
  | r :: rs => do
    let v ← r.toRecord
    return (r.name, v) :: (← relationRecords rs)

def toRecord (t : Relational) : Except Error Value := do
  let relations ← relationRecords t.relations
  return .record (
    [("name", .str t.name), ("columns", .keyed (t.columns.map fun c => (c.name, c.toRecord))),
      ("relations", .keyed relations)]
      ++ Descriptor.togetherEntry t.together
      ++ (if t.isPlaceholder then [("placeholder", .str depthLimitMark)] else []))

end Relational

end Trischema
