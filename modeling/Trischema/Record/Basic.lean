import Trischema.Object.Calling
import Trischema.Property.Basic

/-!
Records: what stores keep of an instance. `Value.serialize` turns a value into plain data, `Value.reference`
into the identifiers that a relationship keeps, and `Descriptor.record` collects both for all properties
of an instance.
-/

namespace Trischema

/-- Values under the keys of properties, in the order of the properties. -/
abbrev Record := List (String × Value)

mutual

/-- A value as plain data: identifiers become texts, members their values, members of enumerations their
names, instances and relationships dictionaries of what they show. -/
def Value.serialize : Value → Except Error Value
  | .identifier s => .ok (.str s)
  | .member m =>
    match m.mixin with
    | .plain => .ok m.value
    | _ => .ok (.member m)
  | .mapping es => do return .mapping ((← serializeEntries es).foldl (fun fs (k, v) => Value.setEntry fs k v) [])
  | .list xs => do return .list (← serializeAll xs)
  | .tuple xs => do return .list (← serializeAll xs)
  | .set xs => do return .list (← serializeAll xs)
  | .object o =>
    if o.cls.isA .enumeration then (Value.object o).getAttribute "name"
    else do return .record (← serializeVisible o.attrs)
  | .type _ => .ok (.record [])
  | .callable _ => .ok (.record [])
  | .relationship r => do
    return .record [
      ("edge_type", .str r.edgeType), ("target", ← serializeTarget r.target),
      ("direction", ← serializeDirection r.direction), ("cardinality", ← serializeCardinality r.cardinality),
      ("owner", .bool r.owner), ("inverse_property", ← r.inverse.serialize), ("join_columns", .texts r.joinColumns),
      ("join_table", ← r.joinTable.serialize), ("cascade", r.cascade.toValue), ("eager", .bool r.eager),
      ("edge_properties", .texts r.edgeProperties)]
  | v => .ok v

def serializeTarget : Target Value → Except Error Value
  | .cls _ => .ok (.record [])
  | .named name => .ok (.str name)
  | .resolver v => v.serialize

def serializeDirection : Choice Direction Value → Except Error Value
  | .known d => .ok (.str d.text)
  | .other v => v.serialize

def serializeCardinality : Option (Choice Cardinality Value) → Except Error Value
  | none => .ok .null
  | some (.known c) => .ok (.str c.text)
  | some (.other v) => v.serialize

def serializeAll : List Value → Except Error (List Value)
  | [] => .ok []
  | x :: xs => do
    let y ← x.serialize
    return y :: (← serializeAll xs)

/-- The entries of a dictionary under the texts of their keys. -/
def serializeEntries : List (Value × Value) → Except Error (List (Value × Value))
  | [] => .ok []
  | (k, v) :: es => do
    let w ← v.serialize
    return (.str k.display, w) :: (← serializeEntries es)

/-- The attributes of an instance whose names do not start with an underscore. -/
def serializeVisible : List (String × Value) → Except Error (List (String × Value))
  | [] => .ok []
  | (k, v) :: es =>
    if k.startsWith "_" then serializeVisible es
    else do
      let w ← v.serialize
      return (k, w) :: (← serializeVisible es)

end

mutual

/-- What a relationship keeps of its value: the identifiers of entities, and the text of anything else. -/
def Value.reference : Value → Except Error Value
  | .null => .ok .null
  | .identifier s => .ok (.str s)
  | .list xs => do return .list (← referenceAll xs)
  | .tuple xs => do return .list (← referenceAll xs)
  | .set xs => do return .list (← referenceAll xs)
  | .object o =>
    if o.cls.isA .entity then do
      let id ← (Value.object o).getAttribute "id"
      id.getAttribute "value"
    else .ok (.str (Value.object o).display)
  | v => .ok (.str v.display)

def referenceAll : List Value → Except Error (List Value)
  | [] => .ok []
  | x :: xs => do
    let y ← x.reference
    return y :: (← referenceAll xs)

end

namespace Property

/-- The value of an instance for a property; a missing one falls back to the default. -/
def valueOf (p : Property) (entity : Value) : Action Value :=
  let v := entity.attributeOrNull p.key
  match v, p.default with
  | .null, some d => d.produce
  | _, _ => return v

/-- What a store keeps of a value of the property. -/
def stored (p : Property) (v : Value) : Except Error Value :=
  if p.isRelationship then v.reference else v.serialize

end Property

namespace Descriptor

/-- The record of an instance for some properties, made in their order. -/
def recordFor (entity : Value) : List Property → Action Record
  | [] => return []
  | p :: ps => do
    let v ← p.valueOf entity
    let w ← Action.ofExcept (p.stored v)
    return (p.key, w) :: (← recordFor entity ps)

/-- The record of an instance. -/
def record (d : Descriptor) (entity : Value) : Action Record := recordFor entity d.properties

end Descriptor

namespace Record

/-- What a record holds under a key, or `null`. -/
def field (r : Record) (key : String) : Value := (r.lookup key).getD .null

/-- A record as a value. -/
def toValue (r : Record) : Value := Value.record r

end Record

end Trischema
