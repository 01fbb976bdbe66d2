import Trischema.Value.Basic
import Trischema.Number.Shortest
import Trischema.Calendar.Text
import Trischema.Text.Quoted

/-!
Values and types as text. `Value.listing` shows how a value is built (texts quoted, dates with their
constructor); `Value.display` is the plain form, which differs from it for texts, dates, identifiers and
members.
-/

namespace Trischema

namespace Member

variable {α : Type}

/-- The name of a member together with its set. -/
def path (m : Member α) : String := m.cls ++ "." ++ m.name

end Member

namespace Class

variable {α : Type}

/-- A class as it is listed. -/
def listing (c : Class α) : String :=
  if c.isExactly .any then "typing.Any"
  else if c.isA .constantSet then "<enum " ++ Text.quoted c.name.text ++ ">"
  else "<class " ++ Text.quoted c.name.qualified ++ ">"

end Class

namespace Head

/-- How a parameterised type begins. -/
def opening : Head → String
  | list => "list" | set => "set" | frozenSet => "frozenset" | tuple => "tuple" | tupleOf => "tuple"
  | mapping => "dict" | sequence => "typing.List"

end Head

namespace TypeExpr

/-- The parts of a union, as alternatives. A union of one type with the absent one is optional. -/
def unionText (alternatives : List (Bool × String)) : String :=
  match alternatives with
  | [(true, _), (_, t)] => "typing.Optional[" ++ t ++ "]"
  | [(_, t), (true, _)] => "typing.Optional[" ++ t ++ "]"
  | ts => Text.listed "typing.Union[" "]" (ts.map (·.2))

end TypeExpr

/-- A complex number: the real part is left out when it is zero. -/
def complexListing (re im : Binary64) : String :=
  let part := NumberStyle.bare.render
  if re = Binary64.zero then part im ++ "j"
  else
    let i := part im
    "(" ++ part re ++ (if i.startsWith "-" then "" else "+") ++ i ++ "j)"

/-- An instance of a class that has no form of its own. -/
def anonymousListing (qualified : String) : String := "<" ++ qualified ++ " object>"

/-- The entries of a dictionary, between braces. -/
def braced (items : List String) : String := Text.listed "\x7b" "\x7d" items

/-- A tuple; one with a single element keeps a comma. -/
def tupleListing : List String → String
  | [x] => "(" ++ x ++ ",)"
  | xs => Text.listed "(" ")" xs

def setListing : List String → String
  | [] => "set()"
  | xs => braced xs

def flagListing (b : Bool) : String := if b then "True" else "False"

/-- A constant with its set and its value. -/
def constantListing (path value : String) : String := "<" ++ path ++ ": " ++ value ++ ">"

/-- A relationship with its fields. -/
def relationshipListing (fields : List (String × String)) : String :=
  Text.listed "RelationshipDescriptor(" ")" (fields.map fun (name, text) => name ++ "=" ++ text)

def Direction.listing (d : Direction) : String := constantListing ("Direction." ++ d.text) (Text.quoted d.text)

def Cardinality.listing (c : Cardinality) : String :=
  constantListing ("Cardinality." ++ c.name) (Text.quoted c.text)

/-- Operations are listed as a list. -/
def Cascade.listing : Cascade → String
  | .flag b => flagListing b
  | .operations names => Text.quotedList names

mutual

/-- A value as it is listed. -/
def Value.listing : Value → String
  | .null => "None"
  | .bool b => flagListing b
  | .int n => toString n
  | .float x => NumberStyle.plain.render x
  | .complex re im => complexListing re im
  | .str s => Text.quoted s
  | .bytes bs => Text.quotedBytes bs
  | .date d => d.listing
  | .moment m => m.listing
  | .list xs => Text.listed "[" "]" (listingAll xs)
  | .tuple xs => tupleListing (listingAll xs)
  | .set xs => setListing (listingAll xs)
  | .mapping es => braced (listingEntries es)
  | .identifier s => "UniqueIdentifier(" ++ Text.quoted s ++ ")"
  | .member m => constantListing m.path m.value.listing
  | .object o =>
    if o.cls.isA .enumeration then
      o.cls.name.text ++ "(" ++ ", ".intercalate (listingNamed "id" o.attrs ++ listingNamed "name" o.attrs) ++ ")"
    else anonymousListing o.cls.name.qualified
  | .type t => t.listing
  | .callable c =>
    match c with
    | .factory name _ => "<function " ++ name ++ ">"
    | .generateId => "<function generate_id>"
    | .resolver _ | .failing _ => "<function <lambda>>"
    | .anonymous _ => "functools.partial(<function>)"
  | .relationship r =>
    relationshipListing [
      ("edge_type", Text.quoted r.edgeType), ("target", targetListing r.target),
      ("direction", directionListing r.direction), ("cardinality", cardinalityListing r.cardinality),
      ("owner", flagListing r.owner), ("inverse_property", r.inverse.listing),
      ("join_columns", tupleListing (r.joinColumns.map Text.quoted)), ("join_table", r.joinTable.listing),
      ("cascade", r.cascade.listing), ("eager", flagListing r.eager),
      ("edge_properties", tupleListing (r.edgeProperties.map Text.quoted))]

def targetListing : Target Value → String
  | .cls c => c.listing
  | .named name => Text.quoted name
  | .resolver v => v.listing

def directionListing : Choice Direction Value → String
  | .known d => d.listing
  | .other v => v.listing

def cardinalityListing : Option (Choice Cardinality Value) → String
  | none => "None"
  | some (.known c) => c.listing
  | some (.other v) => v.listing

def listingAll : List Value → List String
  | [] => []
  | x :: xs => x.listing :: listingAll xs

def listingEntries : List (Value × Value) → List String
  | [] => []
  | (k, v) :: es => (k.listing ++ ": " ++ v.listing) :: listingEntries es

/-- The listing of the first value under a name. -/
def listingNamed (name : String) : List (String × Value) → List String
  | [] => []
  | (k, v) :: es => if k = name then [v.listing] else listingNamed name es

/-- A type as it is listed on its own. -/
def TypeExpr.listing : TypeExpr Value → String
  | .absent => "None"
  | .cls c => c.listing
  | .generic head args =>
    head.opening ++ "[" ++
      (match head, typeParts args with
        | .tuple, [] => "()"
        | .tupleOf, ts => ", ".intercalate (ts ++ ["..."])
        | _, ts => ", ".intercalate ts) ++ "]"
  | .union .named ts => TypeExpr.unionText (unionParts ts)
  | .union .barred ts => " | ".intercalate (barredParts ts)
  | .literal vs => Text.listed "typing.Literal[" "]" (literalParts vs)
  | .shorthand ts => Text.listed "[" "]" (typeListings ts)
  | .forward name => "ForwardRef(" ++ Text.quoted name ++ ")"
  | .object v => v.listing

def typeListings : List (TypeExpr Value) → List String
  | [] => []
  | t :: ts => t.listing :: typeListings ts

/-- Types as parameters: classes by their full name. -/
def typeParts : List (TypeExpr Value) → List String
  | [] => []
  | .cls c :: ts => c.name.qualified :: typeParts ts
  | t :: ts => t.listing :: typeParts ts

def unionParts : List (TypeExpr Value) → List (Bool × String)
  | [] => []
  | .cls c :: ts => (c.isExactly .unit, c.name.qualified) :: unionParts ts
  | t :: ts => (false, t.listing) :: unionParts ts

def barredParts : List (TypeExpr Value) → List String
  | [] => []
  | .cls c :: ts => (if c.isExactly .unit then "None" else c.name.qualified) :: barredParts ts
  | t :: ts => t.listing :: barredParts ts

def literalParts : List Value → List String
  | [] => []
  | .type (.cls c) :: vs => c.name.qualified :: literalParts vs
  | v :: vs => v.listing :: literalParts vs

end

namespace Value

/-- A value as plain text. -/
def display : Value → String
  | str s => s
  | date d => d.iso
  | moment m => m.isoWith " "
  | identifier s => s
  | member m =>
    match m.mixin with
    | .integer => m.value.listing
    | _ => m.path
  | v => v.listing

end Value

namespace TypeExpr

/-- Takes the name of the older typing vocabulary out of a text. -/
def withoutTyping (s : String) : String := s.replace "typing." ""

mutual

/-- The stable name of a declared type. -/
def label : TypeExpr Value → String
  | absent => "None"
  | shorthand ts => "list[" ++ labelFirst ts ++ "]"
  | cls c => c.name.text
  | t@(generic ..) => withoutTyping t.listing
  | t@(union ..) => withoutTyping t.listing
  | t@(literal _) => withoutTyping t.listing
  | t => t.listing

/-- The name of the first of several types. -/
def labelFirst : List (TypeExpr Value) → String
  | [] => "None"
  | t :: _ => label t

end

/-- The name of a class, of the head of a parameterised type or of a function; other expressions have
none. -/
def ownName? : TypeExpr Value → Option String
  | cls c => some c.name.text
  | generic .sequence _ => some "List"
  | generic head _ => some head.origin.label
  | union .named ts =>
    some (if (unionParts ts).length = 2 ∧ (unionParts ts).any (·.1) then "Optional" else "Union")
  | literal _ => some "Literal"
  | object (.callable (.factory name _)) => some name
  | object (.callable .generateId) => some "generate_id"
  | object (.callable (.resolver _)) | object (.callable (.failing _)) => some "<lambda>"
  | _ => none

/-- The name that a type goes by in messages about it: its own, or its listing where it has none. -/
def ownName (t : TypeExpr Value) : String := t.ownName?.getD t.listing

end TypeExpr

namespace Value

/-- The name of the kind of a value. -/
def kindName : Value → String
  | null => "NoneType"
  | bool _ => "bool"
  | int _ => "int"
  | float _ => "float"
  | complex .. => "complex"
  | str _ => "str"
  | bytes _ => "bytes"
  | date _ => "date"
  | moment _ => "datetime"
  | list _ => "list"
  | tuple _ => "tuple"
  | set _ => "set"
  | mapping _ => "dict"
  | identifier _ => "UniqueIdentifier"
  | member m => m.cls
  | object o => o.cls.name.text
  | type t =>
    match t with
    | .cls c => if c.isExactly .any then "_AnyMeta" else if c.isA .constantSet then "EnumType" else "type"
    | .generic .sequence _ => "_GenericAlias"
    | .generic .. => "GenericAlias"
    | .union .named _ => "_UnionGenericAlias"
    | .union .barred _ => "UnionType"
    | .literal _ => "_LiteralGenericAlias"
    | .forward _ => "ForwardRef"
    | .absent => "NoneType"
    | .shorthand _ => "list"
    | .object _ => "object"
  | callable (.anonymous _) => "partial"
  | callable _ => "function"
  | relationship _ => "RelationshipDescriptor"

end Value

end Trischema
