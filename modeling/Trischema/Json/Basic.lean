import Trischema.Value.Order
import Trischema.Error

/-!
Documents: null, truth values, numbers, texts, arrays and objects whose members keep their order.
`Json.ofValue` makes a document of a value; what a document cannot hold is either refused or, on request,
replaced by its text.
-/

namespace Trischema

inductive Json
  | null
  | bool (b : Bool)
  | int (n : Int)
  | float (x : Binary64)
  | str (s : String)
  | array (items : List Json)
  | object (members : List (String × Json))

namespace Json

instance : Inhabited Json := ⟨null⟩

mutual

/-- The value that a document stands for. A later member replaces an earlier one of the same name. -/
def toValue : Json → Value
  | null => .null
  | bool b => .bool b
  | int n => .int n
  | float x => .float x
  | str s => .str s
  | array items => .list (toValues items)
  | object members => .mapping (toEntries [] members)

def toValues : List Json → List Value
  | [] => []
  | x :: xs => x.toValue :: toValues xs

def toEntries (seen : List (Value × Value)) : List (String × Json) → List (Value × Value)
  | [] => seen
  | (k, x) :: ms => toEntries (Value.setEntry seen (.str k) x.toValue) ms

end

/-- What becomes of a value that a document cannot hold. -/
inductive Unknown
  | refuse
  | asText
  deriving DecidableEq, Repr

/-- The name of a member, for a key that may be one. -/
def memberName? : Value → Option String
  | .str s => some s
  | .bool b => some (if b then "true" else "false")
  | .null => some "null"
  | .int n => some (toString n)
  | .float x => some (NumberStyle.document.render x)
  | v => v.text? <|> (match v.number? with
    | some (.int n) => some (toString n)
    | _ => none)

/-- Whether two keys can be put in order. -/
def comparable (a b : Value) : Bool := (a.order? b).isSome

/-- Puts entries in the order of their keys; keys that cannot be compared are refused. -/
def sortEntries (es : List (Value × Json)) : Except Error (List (Value × Json)) :=
  if (es.zip (es.drop 1)).all (fun (a, b) => comparable a.1 b.1) then
    .ok (es.mergeSort fun a b => (a.1.order? b.1) != some (some .gt))
  else .error (.failure .kind)

/-- Names the members of an object. -/
def nameEntries : List (Value × Json) → Except Error (List (String × Json))
  | [] => .ok []
  | (k, x) :: es => do
    let some name := memberName? k | .error (.failure .kind)
    let rest ← nameEntries es
    return (name, x) :: rest

mutual

/-- The document of a value, with the members of every object in the order of their keys. -/
def ofValue (unknown : Unknown) : Value → Except Error Json
  | .null => .ok null
  | .bool b => .ok (bool b)
  | .int n => .ok (int n)
  | .float x => .ok (float x)
  | .str s => .ok (str s)
  | .list xs => do return array (← ofValues unknown xs)
  | .tuple xs => do return array (← ofValues unknown xs)
  | .mapping es => do
    let entries ← ofEntries unknown es
    let sorted ← sortEntries entries
    return object (← nameEntries sorted)
  | v =>
    match v.text?, v.number? with
    | some s, _ => .ok (str s)
    | none, some (.int n) => .ok (int n)
    | none, _ =>
      match unknown with
      | .asText => .ok (str v.display)
      | .refuse => .error (.failure .kind)

def ofValues (unknown : Unknown) : List Value → Except Error (List Json)
  | [] => .ok []
  | x :: xs => do
    let y ← ofValue unknown x
    return y :: (← ofValues unknown xs)

def ofEntries (unknown : Unknown) : List (Value × Value) → Except Error (List (Value × Json))
  | [] => .ok []
  | (k, v) :: es => do
    let x ← ofValue unknown v
    return (k, x) :: (← ofEntries unknown es)

end

end Json

end Trischema
