import Trischema.Error
import Trischema.Value.Equality

/-!
Bodies of answers: values in the form in which a document can hold them. Dates and moments become their
interchange form, members their values and sequences lists; what has no such form is refused.
-/

namespace Trischema

namespace Body

/-- A distance from universal time in whole minutes; none is marked by a letter. -/
def zoneText (offset : Int) : String :=
  let seconds := offset / 1000000
  if seconds = 0 then "Z"
  else Moment.offsetText ((if seconds < 0 then -1 else 1) * (seconds.natAbs / 60 * 60) * 1000000)

/-- A moment in its interchange form. -/
def momentText (m : Moment) : String := { m with offset := none }.iso ++ (m.offset.map zoneText).getD ""

/-- A byte string as the text that it holds. -/
def bytesText (bs : List UInt8) : Except Error Value :=
  match String.fromUTF8? (ByteArray.mk bs.toArray) with
  | some s => .ok (.str s)
  | none => .error (.failure .body)

/-- A key as the name of a member. -/
def keyText (k : Value) : Except Error Value :=
  match k.text?, k with
  | some s, _ => .ok (.str s)
  | none, .null => .ok (.str "None")
  | none, .bool b => .ok (.str (if b then "true" else "false"))
  | none, .int n => .ok (.str (toString n))
  | none, .date d => .ok (.str d.iso)
  | none, .moment m => .ok (.str (momentText m))
  | none, .bytes bs => bytesText bs
  | none, _ => .error (.failure .body)

mutual

/-- A value as a body. -/
def ofValue : Value → Except Error Value
  | .null => .ok .null
  | .bool b => .ok (.bool b)
  | .int n => .ok (.int n)
  | .str s => .ok (.str s)
  | .float x => if x.isFinite then .ok (.float x) else .error (.value .unwritableNumber)
  | .bytes bs => bytesText bs
  | .date d => .ok (.str d.iso)
  | .moment m => .ok (.str (momentText m))
  | .list xs => do return .list (← ofValues xs)
  | .tuple xs => do return .list (← ofValues xs)
  | .set xs => do return .list (← ofValues xs)
  | .mapping es => do return .mapping ((← ofEntries es).foldl (fun fs (k, v) => Value.setEntry fs k v) [])
  | .member ⟨_, _, _, v⟩ => ofValue v
  | _ => .error (.failure .body)

def ofValues : List Value → Except Error (List Value)
  | [] => .ok []
  | x :: xs => do
    let y ← ofValue x
    return y :: (← ofValues xs)

def ofEntries : List (Value × Value) → Except Error (List (Value × Value))
  | [] => .ok []
  | (k, v) :: es => do
    let name ← keyText k
    let w ← ofValue v
    return (name, w) :: (← ofEntries es)

end

end Body

end Trischema
