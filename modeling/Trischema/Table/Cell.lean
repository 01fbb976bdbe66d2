import Trischema.Error
import Trischema.Value.Order
import Trischema.Number.Reading
import Trischema.Number.Rounded

/-!
Cells of tables. A column has an affinity: it turns what is stored in it, and what it is compared with,
into its own kind where that loses nothing, and leaves the rest as it is.
-/

namespace Trischema

/-- What a table keeps in one place. Whole numbers have 64 bits. -/
inductive Cell
  | null
  | int (n : Int)
  | real (x : Binary64)
  | text (s : String)
  | blob (bs : List UInt8)
  deriving DecidableEq, Repr

/-- The kind of cell that a column prefers. -/
inductive Affinity
  | text | integer | real | none
  deriving DecidableEq, Repr

namespace Affinity

/-- The type of a column in a table definition. -/
def typeName : Affinity → String
  | text => "TEXT"
  | integer => "INTEGER"
  | real => "REAL"
  | none => "BLOB"

end Affinity

namespace Cell

/-- Whether a whole number has 64 bits. -/
def fits (n : Int) : Bool := -0x8000000000000000 ≤ n && n < 0x8000000000000000

/-- Real numbers as the text of a cell: up to fifteen digits, always with a point. -/
def realStyle : NumberStyle :=
  { NumberStyle.plain with highest := 14, pointsMantissa := true, infinity := "Inf" }

/-- The text of a real number; zero has no sign. -/
def realText (x : Binary64) : String :=
  if x.isZero then "0.0" else realStyle.renderBy (Binary64.rounded 15) x

/-- A whole number without a fraction, strictly within 64 bits. -/
def wholeOf? (x : Binary64) : Option Int :=
  x.toInt?.filter fun n => -0x8000000000000000 < n && n < 0x7FFFFFFFFFFFFFFF

def isSpace (c : Char) : Bool := c == ' ' || (0x09 ≤ c.toNat && c.toNat ≤ 0x0D)

/-- The number that a text is, with spaces around it. -/
def number? (s : String) : Option Cell :=
  let cs := ((s.toList.dropWhile isSpace).reverse.dropWhile isSpace).reverse
  let (negative, digits) := splitSign cs
  let whole : Int := if negative then -(digitsValue digits : Int) else digitsValue digits
  if !digits.isEmpty && digits.all Char.isDigit && fits whole then some (int whole)
  else (Binary64.readMagnitude? negative digits).map real

/-- A real number as a whole one where that loses nothing. -/
def tighten : Cell → Cell
  | real x =>
    match wholeOf? x with
    | some n => int n
    | none => real x
  | c => c

/-- A text as the number that it is. -/
def numeric : Cell → Cell
  | text s => (number? s).getD (text s)
  | c => c

/-- A number as its text. -/
def textual : Cell → Cell
  | int n => text (toString n)
  | real x => text (realText x)
  | c => c

/-- A number as a real one; zero loses its sign. -/
def widen : Cell → Cell
  | int n => real (Binary64.ofInt n)
  | real x => if x.isZero then real Binary64.zero else real x
  | c => c

/-- What a column keeps of a cell. -/
def stored (a : Affinity) (c : Cell) : Cell :=
  match a with
  | .text => c.textual
  | .integer => c.numeric.tighten
  | .real => c.numeric.widen
  | .none => c

/-- What a cell is when it is compared with a column. -/
def sought (a : Affinity) (c : Cell) : Cell :=
  match a with
  | .text => c.textual
  | .integer | .real => c.numeric
  | .none => c

/-- Whether two cells are equal; nothing is equal to `null`. -/
def same : Cell → Cell → Bool
  | int m, int n => m == n
  | int m, real y => y.compareInt? m == some .eq
  | real x, int n => x.compareInt? n == some .eq
  | real x, real y => x.compare? y == some .eq
  | text s, text t => s == t
  | blob s, blob t => s == t
  | _, _ => false

/-- Whether a column's cell is equal to another one. -/
def holds (a : Affinity) (column c : Cell) : Bool := (column.sought a).same (c.sought a)

def toValue : Cell → Value
  | null => .null
  | int n => .int n
  | real x => .float x
  | text s => .str s
  | blob bs => .bytes bs

/-- A whole number as a cell, if it has 64 bits. -/
def ofInt (n : Int) : Except Error Cell := if fits n then .ok (int n) else .error (.failure .overflow)

/-- The cell that a value is bound to. Containers, identifiers, instances and the like cannot be bound. -/
def ofValue (v : Value) : Except Error Cell :=
  match v with
  | .null => .ok null
  | .float x => .ok (if x.isNan then null else real x)
  | .bytes bs => .ok (blob bs)
  | _ =>
    match v.text?, v.number? with
    | some s, _ => .ok (text s)
    | none, some (.int n) => ofInt n
    | none, _ => .error (.failure .binding)

/-- Binds values from left to right. -/
def ofValues : List Value → Except Error (List Cell)
  | [] => .ok []
  | v :: vs => do
    let c ← ofValue v
    return c :: (← ofValues vs)

end Cell

end Trischema
