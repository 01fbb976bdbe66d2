import Trischema.Value.Text

/-!
Equality of values. Numbers are equal across their kinds, an identifier equals its text, containers are
compared element by element and dictionaries regardless of order. Instances are compared by the domain
base that is nearest in their lineage: entities and enumerations by class and id, value objects by class
and attribute values, all others by identity. Sets and dictionaries file their elements and keys, and find
an equal value only where it is filed alike.
-/

namespace Trischema

/-- The numeric content of a value. -/
inductive Number
  | int (n : Int)
  | float (x : Binary64)
  | complex (re im : Binary64)
  deriving DecidableEq, Repr

namespace Number

/-- Order of two real numbers by exact value; `none` when one is `nan` or complex. -/
def compare? : Number → Number → Option Ordering
  | int a, int b => some (compare a b)
  | int a, float y => (y.compareInt? a).map Ordering.swap
  | float x, int b => x.compareInt? b
  | float x, float y => x.compare? y
  | _, _ => none

def isComplex : Number → Bool
  | complex .. => true
  | _ => false

/-- The two parts of a number. -/
def parts : Number → Number × Number
  | complex re im => (float re, float im)
  | n => (n, int 0)

def same (a b : Number) : Bool :=
  a.parts.1.compare? b.parts.1 == some .eq && a.parts.2.compare? b.parts.2 == some .eq

end Number

/-- Whether two type expressions are one type: they are listed alike, and made of the same classes. -/
def TypeExpr.alike (t u : TypeExpr Value) : Bool := t.listing == u.listing && t.classNames == u.classNames

namespace Value

/-- The number that a value counts as: truth values are 0 and 1, members of integer sets their value. -/
def number? : Value → Option Number
  | bool b => some (.int (if b then 1 else 0))
  | int n => some (.int n)
  | float x => some (.float x)
  | complex re im => some (.complex re im)
  | member ⟨_, .integer, _, int n⟩ => some (.int n)
  | _ => none

/-- The text that a value counts as. -/
def text? : Value → Option String
  | str s => some s
  | member ⟨_, .text, _, str s⟩ => some s
  | _ => none

/-- The text that a value is equal to, and found by among the keys of a dictionary. -/
def word? : Value → Option String
  | identifier s => some s
  | v => v.text?

/-- The values that a value goes through one after the other: the elements of a container, the keys of a
dictionary, the characters of a text, the numbers of a run of bytes. -/
def elements? (v : Value) : Option (List Value) :=
  match v.text?, v with
  | some s, _ => some (s.toList.map fun c => str (String.ofList [c]))
  | none, list xs | none, tuple xs | none, set xs => some xs
  | none, mapping entries => some (entries.map (·.1))
  | none, bytes bs => some (bs.map fun b => int b.toNat)
  | none, _ => none

/-- Equality of values that are neither numbers nor texts and hold no other values. -/
def sameAtom (a b : Value) : Bool :=
  match a, b with
  | null, null => true
  | bytes s, bytes t => s == t
  | date d, date e => d == e
  | moment m, moment n => m.sameInstant n
  | member m, member n => m.owner == n.owner && m.name == n.name
  | type t, type u => t.alike u
  | callable .generateId, callable .generateId => true
  | _, _ => false

/-- Equality of numbers, and of other values that hold no other values and are no texts. -/
def sameContent (a b : Value) : Bool :=
  match a.number?, b.number? with
  | some m, some n => m.same n
  | some _, none | none, some _ => false
  | none, none => a.sameAtom b

/-- Equality of values that hold no other values. -/
def sameLeaf (a b : Value) : Bool :=
  match a.number?, b.number? with
  | some m, some n => m.same n
  | some _, none | none, some _ => false
  | none, none =>
    match a.text?, b.text? with
    | some s, some t => s == t
    | some s, none =>
      match b with
      | identifier t => s == t
      | _ => false
    | none, some _ => false
    | none, none => a.sameAtom b

end Value

/-- The bytes of a number, the lowest first. -/
def littleEndian : Nat → Nat → List UInt8
  | 0, _ => []
  | width + 1, n => UInt8.ofNat (n % 256) :: littleEndian width (n / 256)

/-- A text as bytes: every character takes as many as the widest one needs. -/
def packed (s : String) : List UInt8 :=
  let widest := s.toList.foldl (fun n c => max n c.toNat) 0
  let width := if widest < 0x100 then 1 else if widest < 0x10000 then 2 else 4
  s.toList.flatMap fun c => littleEndian width c.toNat

mutual

/-- What a listing shows by its place and not by a text, in order: the instances that have no form of
their own, and the functions. -/
def Value.placed : Value → List Value
  | .list xs | .tuple xs | .set xs => placedAll xs
  | .mapping es => placedEntries es
  | .member m => m.value.placed
  | .object o =>
    if o.cls.isA .enumeration then placedNamed "id" o.attrs ++ placedNamed "name" o.attrs
    else [.int o.identity]
  | .type t => t.placed
  | .callable c => [.callable c]
  | .relationship r =>
    targetPlaced r.target ++ directionPlaced r.direction ++ cardinalityPlaced r.cardinality ++ r.inverse.placed
      ++ r.joinTable.placed
  | _ => []

def targetPlaced : Target Value → List Value
  | .resolver v => v.placed
  | _ => []

def directionPlaced : Choice Direction Value → List Value
  | .other v => v.placed
  | .known _ => []

def cardinalityPlaced : Option (Choice Cardinality Value) → List Value
  | some (.other v) => v.placed
  | _ => []

def placedAll : List Value → List Value
  | [] => []
  | x :: xs => x.placed ++ placedAll xs

def placedEntries : List (Value × Value) → List Value
  | [] => []
  | (k, v) :: es => k.placed ++ v.placed ++ placedEntries es

/-- What the listing of the first value under a name shows by its place. -/
def placedNamed (name : String) : List (String × Value) → List Value
  | [] => []
  | (k, v) :: es => if k = name then v.placed else placedNamed name es

def TypeExpr.placed : TypeExpr Value → List Value
  | .generic _ ts | .union _ ts | .shorthand ts => placedTypes ts
  | .literal vs => placedAll vs
  | .object v => v.placed
  | _ => []

def placedTypes : List (TypeExpr Value) → List Value
  | [] => []
  | t :: ts => t.placed ++ placedTypes ts

end

/-- What bytes are filed under: themselves, and zero when there are none. -/
def filedBytes (bs : List UInt8) : Value := if bs.isEmpty then .int 0 else .bytes bs

/-- What the listing of a value is filed under: its bytes, and the places that it shows where it shows any. -/
def Value.shown (v : Value) : Value :=
  let text := filedBytes (packed v.listing)
  if v.placed.isEmpty then text else .tuple (text :: v.placed)

/-- What a number without an imaginary part is filed under. Minus one is filed with minus two. -/
def filedReal (x : Binary64) : Value := if x.toInt? = some (-1) then .int (-2) else .float x

mutual

/-- A value that is equal for two values exactly when they are filed alike: entities and enumerations
under class and id, value objects under the listings of their attribute values, members under their
name or the plain value that they are, relationships under their fields, and texts under their bytes. -/
def Value.filing : Value → Value
  | .identifier s => filedBytes (packed s)
  | .str s => filedBytes (packed s)
  | .bytes bs => filedBytes bs
  | .tuple xs => .tuple (filingAll xs)
  | .member ⟨_, .plain, name, _⟩ => filedBytes (packed name)
  | .member ⟨_, .text, _, .str s⟩ => filedBytes (packed s)
  | .object o =>
    match o.cls.nearest? [.entity, .valueObject, .enumeration] with
    | some .valueObject => .tuple (o.attrs.map fun (_, v) => v.shown)
    | some _ => .tuple [.type (.cls o.cls), filingNamed "id" o.attrs]
    | none => .object o
  | .relationship r =>
    let flag (b : Bool) : Value := .int (if b then 1 else 0)
    let names (ss : List String) : Value := .tuple (ss.map fun s => filedBytes (packed s))
    .tuple [filedBytes (packed r.edgeType), targetFiling r.target, directionFiling r.direction,
      cardinalityFiling r.cardinality, flag r.owner, r.inverse.filing, names r.joinColumns, r.joinTable.filing,
      flag (r.cascade == .flag true), flag r.eager, names r.edgeProperties]
  | v =>
    match v.number? with
    | some (.int n) => .int (if n = -1 then -2 else n)
    | some (.float x) => filedReal x
    | some (.complex re im) => if im.toInt? = some 0 then filedReal re else v
    | none => v

def targetFiling : Target Value → Value
  | .cls c => .type (.cls c)
  | .named name => filedBytes (packed name)
  | .resolver v => v.filing

def directionFiling : Choice Direction Value → Value
  | .known d => filedBytes (packed d.text)
  | .other v => v.filing

def cardinalityFiling : Option (Choice Cardinality Value) → Value
  | none => .null
  | some (.known c) => filedBytes (packed c.name)
  | some (.other v) => v.filing

def filingAll : List Value → List Value
  | [] => []
  | x :: xs => x.filing :: filingAll xs

def filingNamed (name : String) : List (String × Value) → Value
  | [] => .null
  | (k, v) :: es => if k = name then v.filing else filingNamed name es

end

mutual

/-- Whether two values that others are filed under are one. Instances are told apart by identity. -/
def Value.samePlace (a b : Value) : Bool :=
  match a with
  | .tuple xs =>
    match b with
    | .tuple ys => allSamePlace xs ys
    | _ => false
  | .object o =>
    match b with
    | .object p => o.identity == p.identity
    | _ => false
  | _ => a.sameContent b
termination_by structural a

def allSamePlace : List Value → List Value → Bool
  | [], [] => true
  | x :: xs, y :: ys => x.samePlace y && allSamePlace xs ys
  | _, _ => false
termination_by structural xs => xs

end

/-- Whether two values are filed alike. -/
def Value.filedAlike (a b : Value) : Bool := a.filing.samePlace b.filing

mutual

/-- Whether two values are equal. -/
def Value.same (a b : Value) : Bool :=
  match a with
  | .list xs =>
    match b with
    | .list ys => sameAll xs ys
    | _ => false
  | .tuple xs =>
    match b with
    | .tuple ys => sameAll xs ys
    | _ => false
  | .set xs =>
    match b with
    | .set ys => xs.length == ys.length && allAmong xs ys
    | _ => false
  | .mapping es =>
    match b with
    | .mapping fs => es.length == fs.length && entriesAmong es fs
    | _ => false
  | .identifier s =>
    match b with
    | .identifier t => s == t
    | _ => b.text? == some s
  | .object o =>
    match b with
    | .object p =>
      match o.cls.nearest? [.entity, .valueObject, .enumeration] with
      | some .valueObject => o.cls.name == p.cls.name && sameValues o.attrs (p.attrs.map (·.2))
      | some _ => o.cls.name == p.cls.name && sameNamed "id" o.attrs p.attrs
      | none => o.identity == p.identity
    | _ => false
  | .relationship r =>
    match b with
    | .relationship s =>
      r.edgeType == s.edgeType && sameTarget r.target s.target && sameDirection r.direction s.direction
        && sameCardinality r.cardinality s.cardinality && r.owner == s.owner && r.inverse.same s.inverse
        && r.joinColumns == s.joinColumns && r.joinTable.same s.joinTable && r.cascade == s.cascade
        && r.eager == s.eager && r.edgeProperties == s.edgeProperties
    | _ => false
  | _ => a.sameLeaf b
termination_by structural a

def sameTarget : Target Value → Target Value → Bool
  | .cls c, .cls d => c.name == d.name
  | .named s, .named t => s == t
  | .resolver v, .resolver w => v.same w
  | _, _ => false
termination_by structural t => t

def sameDirection : Choice Direction Value → Choice Direction Value → Bool
  | .known d, .known e => d == e
  | .other v, .other w => v.same w
  | _, _ => false
termination_by structural d => d

def sameCardinality : Option (Choice Cardinality Value) → Option (Choice Cardinality Value) → Bool
  | none, none => true
  | some (.known c), some (.known d) => c == d
  | some (.other v), some (.other w) => v.same w
  | _, _ => false
termination_by structural c => c

def sameAll : List Value → List Value → Bool
  | [], [] => true
  | x :: xs, y :: ys => x.same y && sameAll xs ys
  | _, _ => false
termination_by structural xs => xs

/-- Whether every element of the first set is one of the second: equal to it, and filed with it. -/
def allAmong : List Value → List Value → Bool
  | [], _ => true
  | x :: xs, ys => ys.any (fun y => x.same y && x.filedAlike y) && allAmong xs ys
termination_by structural xs => xs

/-- Whether every entry of the first dictionary is one of the second: under one key, with equal values. -/
def entriesAmong : List (Value × Value) → List (Value × Value) → Bool
  | [], _ => true
  | (k, v) :: es, fs => fs.any (fun f => (k.same f.1 && k.filedAlike f.1) && v.same f.2) && entriesAmong es fs
termination_by structural es => es

/-- Whether the values under names are equal to the given values, in order. -/
def sameValues : List (String × Value) → List Value → Bool
  | [], [] => true
  | (_, v) :: es, w :: ws => v.same w && sameValues es ws
  | _, _ => false
termination_by structural es => es

/-- Whether the first value under a name is equal to the one under that name in the other list. -/
def sameNamed (name : String) : List (String × Value) → List (String × Value) → Bool
  | [], _ => false
  | (k, v) :: es, fs =>
    if k = name then (fs.lookup name).any (fun w => v.same w) else sameNamed name es fs
termination_by structural es => es

end

namespace Value

/-- Whether two values are one element of a set, or one key of a dictionary. -/
def sameKey (x y : Value) : Bool := x.same y && x.filedAlike y

/-- Whether a value is among the given ones. -/
def among (x : Value) (ys : List Value) : Bool := ys.any (fun y => x.same y)

/-- Whether a value is one of the elements of a set, or of the keys of a dictionary. -/
def isElement (x : Value) (ys : List Value) : Bool := ys.any (fun y => x.sameKey y)

/-- Whether a value counts as true: it is not null, false, zero or empty. -/
def truthy : Value → Bool
  | null => false
  | bool b => b
  | int n => n ≠ 0
  | float x => !x.isZero
  | complex re im => !(re.isZero && im.isZero)
  | str s => !s.isEmpty
  | bytes bs => !bs.isEmpty
  | list xs => !xs.isEmpty
  | tuple xs => !xs.isEmpty
  | set xs => !xs.isEmpty
  | mapping es => !es.isEmpty
  | member ⟨_, .integer, _, int n⟩ => n ≠ 0
  | member ⟨_, .text, _, str s⟩ => !s.isEmpty
  | _ => true

/-- The entry of a dictionary under a key. -/
def entry? (key : Value) (es : List (Value × Value)) : Option Value :=
  (es.find? fun (k, _) => k.sameKey key).map (·.2)

/-- Sets an entry of a dictionary: an equal key keeps its place and its form, a new one goes last. -/
def setEntry (es : List (Value × Value)) (key v : Value) : List (Value × Value) :=
  if es.any (fun (k, _) => k.sameKey key) then es.map fun (k, w) => if k.sameKey key then (k, v) else (k, w)
  else es ++ [(key, v)]

end Value

mutual

/-- Whether a value may be a key. Lists, sets and dictionaries may not, nor what holds them: the
operations of a relationship are in a list. -/
def Value.hashable : Value → Bool
  | .list _ => false
  | .set _ => false
  | .mapping _ => false
  | .tuple xs => allHashable xs
  | .type (.generic _ ts) => allTypesHashable ts
  | .type (.literal vs) => allHashable vs
  | .object o =>
    match o.cls.nearest? [.entity, .enumeration, .valueObject] with
    | some .valueObject | none => true
    | _ => namedHashable "id" o.attrs
  | .relationship r =>
    targetHashable r.target && directionHashable r.direction && cardinalityHashable r.cardinality
      && r.inverse.hashable && r.joinTable.hashable && r.cascade.isFlag
  | _ => true

def targetHashable : Target Value → Bool
  | .resolver v => v.hashable
  | _ => true

def directionHashable : Choice Direction Value → Bool
  | .other v => v.hashable
  | .known _ => true

def cardinalityHashable : Option (Choice Cardinality Value) → Bool
  | some (.other v) => v.hashable
  | _ => true

def allHashable : List Value → Bool
  | [] => true
  | x :: xs => x.hashable && allHashable xs

def namedHashable (name : String) : List (String × Value) → Bool
  | [] => true
  | (k, v) :: es => (if k = name then v.hashable else true) && namedHashable name es

def TypeExpr.hashable : TypeExpr Value → Bool
  | .shorthand _ => false
  | .object v => v.hashable
  | .generic _ ts => allTypesHashable ts
  | .literal vs => allHashable vs
  | _ => true

def allTypesHashable : List (TypeExpr Value) → Bool
  | [] => true
  | t :: ts => t.hashable && allTypesHashable ts

end

end Trischema
