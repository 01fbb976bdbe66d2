import Trischema.Record.Basic
import Trischema.Value.Order

/-!
Conditions on records. A condition names keys with what is expected of them: a plain value is compared for
equality, or looked for in a list, and a dictionary whose keys all start with a dollar sign is a list of
operators with their operands.
-/

namespace Trischema

namespace Value

/-- Whether one list occurs in another without gaps. -/
def occursIn {α : Type} [BEq α] (part : List α) : List α → Bool
  | [] => part.isEmpty
  | c :: cs => part.isPrefixOf (c :: cs) || occursIn part cs

/-- Whether a text contains another. -/
def containsText (whole part : String) : Bool := occursIn part.toList whole.toList

/-- Whether a value is one of some bytes or a part of them. -/
def isInBytes (x : Value) (bs : List UInt8) : Except Error Bool :=
  match x, x.number? with
  | bytes part, _ => .ok (occursIn part bs)
  | _, some (.int n) =>
    if 0 ≤ n ∧ n < 256 then .ok (bs.contains (UInt8.ofNat n.toNat)) else .error (.value .byteRange)
  | _, _ => .error (.failure .kind)

/-- Whether a value is contained in another: an element of a list, tuple or set, a key of a dictionary, or
a part of a text or of bytes. Nothing is contained in other values. -/
def isIn (x container : Value) : Except Error Bool :=
  match container.text?, container with
  | some whole, _ =>
    match x.text? with
    | some part => .ok (containsText whole part)
    | none => .error (.failure .kind)
  | none, list xs | none, tuple xs => .ok (x.among xs)
  | none, set xs =>
    match x with
    | set _ => .ok false
    | _ => if x.hashable then .ok (x.isElement xs) else .error (.failure .kind)
  | none, mapping es => if x.hashable then .ok (x.isElement (es.map (·.1))) else .error (.failure .kind)
  | none, bytes bs => x.isInBytes bs
  | none, _ => .error (.failure .kind)

/-- Compares for order; `null` on the left is in no order, and values of different kinds are refused. -/
def ordered (accept : Ordering → Bool) (a b : Value) : Except Error Bool :=
  if a.isNull then .ok false
  else
    match a.order? b with
    | some o => .ok (o.any accept)
    | none => .error (.failure .kind)

end Value

/-- The operators of conditions. -/
inductive Comparator
  | eq | ne | gt | gte | lt | lte | isIn | isNotIn
  deriving DecidableEq, Repr

namespace Comparator

def all : List Comparator := [eq, ne, gt, gte, lt, lte, isIn, isNotIn]

def name : Comparator → String
  | eq => "$eq" | ne => "$ne" | gt => "$gt" | gte => "$gte" | lt => "$lt" | lte => "$lte"
  | isIn => "$in" | isNotIn => "$nin"

def ofName? (s : String) : Option Comparator := all.find? (·.name == s)

/-- Whether an operator holds between what is there and its operand. -/
def holds (c : Comparator) (actual operand : Value) : Except Error Bool :=
  match c with
  | eq => .ok (actual.same operand)
  | ne => .ok (!actual.same operand)
  | gt => actual.ordered (· == .gt) operand
  | gte => actual.ordered (· != .lt) operand
  | lt => actual.ordered (· == .lt) operand
  | lte => actual.ordered (· != .gt) operand
  | isIn => actual.isIn operand
  | isNotIn => (actual.isIn operand).map not

end Comparator

namespace Matching

/-- Whether all keys start with a dollar sign, up to the first that does not; keys must be texts. -/
def allOperators : List (Value × Value) → Except Error Bool
  | [] => .ok true
  | (k, _) :: es =>
    match k.text?, k with
    | some s, _ => if s.startsWith "$" then allOperators es else .ok false
    | none, .bytes _ => .error (.failure .kind)
    | none, _ => .error (.failure .attribute)

/-- Whether all operators hold, up to the first that does not. -/
def operatorsHold (actual : Value) : List (Value × Value) → Except Error Bool
  | [] => .ok true
  | (op, operand) :: es =>
    match op.text?.bind Comparator.ofName? with
    | none => .error (.value (.unsupportedOperator op.display))
    | some c => do
      if ← c.holds actual operand then operatorsHold actual es else return false

/-- Whether a value is as expected. -/
def expectationHolds (actual expected : Value) : Except Error Bool := do
  let operators ← match expected with
    | .mapping (e :: es) => do
      if ← allOperators (e :: es) then return (← operatorsHold actual (e :: es))
      else plain
    | _ => plain
  return operators
where
  /-- Equality, or membership where a list is there and none is expected. -/
  plain : Except Error Bool :=
    match actual, expected with
    | .list _, .list _ => .ok (actual.same expected)
    | .list xs, _ => .ok (expected.among xs)
    | _, _ => .ok (actual.same expected)

/-- What a record holds under a key; only dictionaries are records. -/
def fieldOf (record key : Value) : Except Error Value :=
  match record with
  | .mapping es => .ok ((Value.entry? key es).getD .null)
  | _ => .error (.failure .attribute)

/-- Whether a record is as a list of expectations says, up to the first that fails. -/
def entriesHold (record : Value) : List (Value × Value) → Except Error Bool
  | [] => .ok true
  | (key, expected) :: es => do
    let actual ← fieldOf record key
    if ← expectationHolds actual expected then entriesHold record es else return false

/-- Whether a record matches a condition. -/
def holds (record condition : Value) : Except Error Bool :=
  match condition with
  | .mapping es => entriesHold record es
  | _ => .error (.failure .attribute)

end Matching

end Trischema
