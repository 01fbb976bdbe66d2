import Trischema.Record.Matching
import Trischema.Record.Insertion
import Trischema.Number.Reading

/-!
Pipelines: stages that filter, sort and cut a list of records, applied in order. Sorting is stable in
both directions, and the first of several sort keys counts most.
-/

namespace Trischema

/-- Where a value stands in an order of records: absent values first, then numbers and times, then
everything else by its text. -/
structure SortKey where
  rank : Nat
  value : Value

namespace Value

/-- The sort key of a value. -/
def sortKey : Value → SortKey
  | null => ⟨0, str ""⟩
  | moment m => ⟨1, str m.iso⟩
  | date d => ⟨1, str d.iso⟩
  | bool b => ⟨2, str (bool b).display⟩
  | v =>
    match v.number? with
    | some (.complex ..) | none => ⟨2, str v.display⟩
    | some _ => ⟨1, v⟩

end Value

namespace SortKey

def toValue (k : SortKey) : Value := .tuple [.int k.rank, k.value]

/-- Whether two keys can be put in order. -/
def comparable (a b : SortKey) : Bool := a.rank != b.rank || (a.value.order? b.value).isSome

/-- Whether a key comes before another. -/
def before (a b : SortKey) : Bool :=
  a.rank < b.rank || (a.rank == b.rank && a.value.order? b.value == some (some .lt))

/-- Whether a key has a place in the order; one that is not a number has none. -/
def isPlaced (k : SortKey) : Bool := k.value.order? k.value == some (some .eq)

end SortKey

namespace Value

/-- A value cut to a whole number, or read as one. -/
def toWhole (v : Value) : Except Error Int :=
  match v.text?, v, v.number? with
  | some s, _, _ =>
    match readWhole? s with
    | some n => .ok n
    | none => .error (.value (.notWhole v))
  | none, bytes bs, _ =>
    match readWhole? (String.ofList (bs.map fun b => Char.ofNat b.toNat)) with
    | some n => .ok n
    | none => .error (.value (.notWhole v))
  | none, _, some (.int n) => .ok n
  | none, _, some (.float x) =>
    match x.truncate? with
    | some n => .ok n
    | none => .error (if x.isNan then .value .notANumber else .failure .overflow)
  | none, _, _ => .error (.failure .kind)

end Value

namespace Pipeline

/-- Whether records are sorted upward or downward. -/
inductive SortOrder
  | ascending | descending
  deriving DecidableEq, Repr

/-- Sorts upward what comes with sort keys; equal keys keep their order. A key that has no place in the
order leaves things where insertion puts them. -/
def arrange {α : Type} (keyed : List (SortKey × α)) : List (SortKey × α) :=
  if keyed.all (·.1.isPlaced) then keyed.mergeSort fun (a, _) (b, _) => !b.before a
  else Insertion.sort (fun (a, _) (b, _) => a.before b) keyed

/-- Sorts what comes with sort keys. Equal keys keep their order in both directions; keys that cannot be
compared with each other are refused. -/
def sortBy {α : Type} (order : SortOrder) (keyed : List (SortKey × α)) : Except Error (List (SortKey × α)) :=
  if keyed.all fun (a, _) => keyed.all fun (b, _) => a.comparable b then
    .ok (match order with
      | .ascending => arrange keyed
      | .descending => (arrange keyed.reverse).reverse)
  else .error (.failure .kind)

/-- The records with their sort keys. -/
def keyBy (key : Value) (records : List Value) : Except Error (List (SortKey × Value)) :=
  records.mapM fun r => do return ((← Matching.fieldOf r key).sortKey, r)

/-- Sorts records by one key. -/
def sortOn (key : Value) (order : SortOrder) (records : List Value) : Except Error (List Value) := do
  return (← sortBy order (← keyBy key records)).map (·.2)

/-- The sort order that a value stands for: 1 is upward and -1 downward. -/
def orderOf (key v : Value) : Except Error SortOrder :=
  if v.same (.int 1) then .ok .ascending
  else if v.same (.int (-1)) then .ok .descending
  else .error (.value (.sortOrder key))

/-- Sorts by several keys, from the last to the first. -/
def sortOnAll (records : List Value) : List (Value × Value) → Except Error (List Value)
  | [] => .ok records
  | (key, v) :: es => do
    let sorted ← sortOnAll records es
    sortOn key (← orderOf key v) sorted

/-- The records from a place on; a negative place counts from the end. -/
def skip (n : Int) (records : List Value) : List Value :=
  records.drop (if n < 0 then (records.length + n).toNat else n.toNat)

/-- The records before a place; a negative place counts from the end. -/
def limit (n : Int) (records : List Value) : List Value :=
  records.take (if n < 0 then (records.length + n).toNat else n.toNat)

/-- The records that match a condition, up to the first that cannot be matched. -/
def filter (condition : Value) : List Value → Except Error (List Value)
  | [] => .ok []
  | r :: rs => do
    let keep ← Matching.holds r condition
    let rest ← filter condition rs
    return if keep then r :: rest else rest

/-- Applies one stage. -/
def applyStage (stage : Value) (records : List Value) : Except Error (List Value) :=
  match stage with
  | .mapping [(op, arg)] =>
    match op.text? with
    | some "$match" => filter arg records
    | some "$sort" =>
      match arg with
      | .mapping es => sortOnAll records es
      | _ => .error (.failure .attribute)
    | some "$skip" => do return skip (← arg.toWhole) records
    | some "$limit" => do return limit (← arg.toWhole) records
    | _ => .error (.value (.unsupportedStage op))
  | _ => .error (.value (.stageShape stage))

/-- Applies stages in order. -/
def run (records : List Value) : List Value → Except Error (List Value)
  | [] => .ok records
  | stage :: stages => do run (← applyStage stage records) stages

end Pipeline

end Trischema
