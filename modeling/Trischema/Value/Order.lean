import Trischema.Error
import Trischema.Value.Equality

/-!
Order of values. Only values of one kind are ordered: numbers by value, texts by code point, byte
strings, dates, moments that agree on knowing their offset, and lists and tuples by their first
difference. `order?` is `none` for a pair that cannot be compared, and `some none` for a pair that can
but has no order. Values are sorted only where any two of them can be compared.
-/

namespace Trischema

/-- Order of two lists of bytes, by their first difference. -/
def compareBytes : List UInt8 → List UInt8 → Ordering
  | [], [] => .eq
  | [], _ => .lt
  | _, [] => .gt
  | a :: as, b :: bs => if a = b then compareBytes as bs else compare a b

/-- Order of two texts by code point. -/
def compareText (s t : String) : Ordering := compareOfLessAndEq s t

/-- Order of sets by inclusion. -/
def compareSets (xs ys : List Value) : Option Ordering :=
  match allAmong xs ys, allAmong ys xs with
  | true, true => some .eq
  | true, false => some .lt
  | false, true => some .gt
  | false, false => none

/-- Order of values that hold no other values. -/
def Value.orderLeaf? (a b : Value) : Option (Option Ordering) :=
  match a.number?, b.number? with
  | some m, some n => if m.isComplex || n.isComplex then none else some (m.compare? n)
  | _, _ =>
    match a.text?, b.text? with
    | some s, some t => some (some (compareText s t))
    | _, _ =>
      match a, b with
      | .bytes s, .bytes t => some (some (compareBytes s t))
      | .date d, .date e => some (some (compare d e))
      | .moment m, .moment n => (m.compare? n).map some
      | .set xs, .set ys => some (compareSets xs ys)
      | _, _ => none

mutual

def Value.order? (a b : Value) : Option (Option Ordering) :=
  match a with
  | .list xs =>
    match b with
    | .list ys => orderAll? xs ys
    | _ => none
  | .tuple xs =>
    match b with
    | .tuple ys => orderAll? xs ys
    | _ => none
  | _ => a.orderLeaf? b
termination_by structural a

/-- Order of two sequences: that of their first difference, else that of their lengths. -/
def orderAll? : List Value → List Value → Option (Option Ordering)
  | [], [] => some (some .eq)
  | [], _ :: _ => some (some .lt)
  | _ :: _, [] => some (some .gt)
  | x :: xs, y :: ys => if x.same y then orderAll? xs ys else x.order? y
termination_by structural xs => xs

end

/-- Values in their order; two that cannot be compared are refused. -/
def Value.sorted (vs : List Value) : Except Error (List Value) :=
  if vs.Pairwise fun a b => (a.order? b).isSome = true then
    .ok (vs.mergeSort fun a b => b.order? a != some (some .lt))
  else .error (.failure .kind)

end Trischema
