import Trischema.Relational.Basic
import Trischema.Json.Writer
import Trischema.Json.Reader
import Trischema.Calendar.Reading

/-!
Values of a record as a table keeps them. Serialized columns hold the text of a document with sorted keys,
truth values are numbers, and dates and moments are kept in their interchange form.
-/

namespace Trischema

namespace Column

/-- What is bound for a value. -/
def encode (c : Column) (v : Value) : Except Error Value :=
  if v.isNull then .ok .null
  else if c.type.isSerialized then (v.toJsonText .spaced .asText).map .str
  else if c.type == .truth then .ok (.int (if v.truthy then 1 else 0))
  else
    match v with
    | .moment m => .ok (.str m.iso)
    | .date d => .ok (.str d.iso)
    | v => .ok v

/-- Reads the text of a document. -/
def readDocument (s : String) : Except Error Value :=
  match Json.read? s with
  | some x => .ok x.toValue
  | none => .error (.failure .json)

/-- Reads a document from a text or from the bytes of one. -/
def decodeDocument (v : Value) : Except Error Value :=
  match v.text?, v with
  | some s, _ => readDocument s
  | none, .bytes bs =>
    match String.fromUTF8? (ByteArray.mk bs.toArray) with
    | some s => readDocument s
    | none => .error (.failure .encoding)
  | none, _ => .error (.failure .kind)

/-- Reads a date or moment from its text. -/
def decodeText (read : String → Except CalendarFault Value) (v : Value) : Except Error Value :=
  match v.text? with
  | none => .error (.failure .kind)
  | some s =>
    match read s with
    | .ok w => .ok w
    | .error fault => .error (.value (.calendar v fault))

/-- The value that was bound. -/
def decode (c : Column) (v : Value) : Except Error Value :=
  if v.isNull then .ok .null
  else
    match c.type with
    | .document | .array => decodeDocument v
    | .truth => .ok (.bool v.truthy)
    | .moment => decodeText (fun s => (Moment.read s).map .moment) v
    | .date => decodeText (fun s => (Date.read s).map .date) v
    | _ => .ok v

end Column

end Trischema
