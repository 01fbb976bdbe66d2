import Trischema.Object.Basic
import Trischema.Value.Order
import Trischema.Text.CaseFold

/-!
Building relationships from the options that a model author writes. `Relationship.ofEntries` checks the
options against each other; its faults are reported for the property that declares the relationship.
-/

namespace Trischema

namespace Given

/-- Options as the entries of a dictionary. -/
def entries (given : Given) : List (Value × Value) := given.map fun (k, v) => (.str k, v)

/-- The entries of a dictionary that are options. -/
def ofEntries (es : List (Value × Value)) : Given := es.filterMap fun (k, v) => k.word?.map fun name => (name, v)

/-- The keys of a dictionary that are none of the names of options. -/
def unknownKeys (names : List String) (es : List (Value × Value)) : List Value :=
  (es.map (·.1)).filter fun k => !k.word?.any (names.contains ·)

/-- Refuses a dictionary with keys that are none of the names of options. The fault names them in their order, and there
is none to name where they have no order. -/
def checkKeys (names : List String) (es : List (Value × Value)) (fault : List Value → DefinitionFault) (site : Site) :
    Except Error Unit :=
  let unknown := unknownKeys names es
  if unknown.isEmpty then .ok ()
  else do .error (.definition (fault (← Value.sorted unknown)) site)

end Given

namespace Direction

/-- Reads a direction, in any case. -/
def read (s : String) : Except DefinitionFault Direction :=
  match all.find? (fun d => d.text == Text.upper s) with
  | some d => .ok d
  | none => .error (.invalidDirection s)

end Direction

namespace Cardinality

/-- Reads a cardinality, in any case and with hyphens or underscores. -/
def read (s : String) : Except DefinitionFault Cardinality :=
  let normalized := String.ofList ((Text.lower s).toList.map fun c => if c = '_' then '-' else c)
  match all.find? (fun c => c.text == normalized) with
  | some c => .ok c
  | none => .error (.invalidCardinality s)

end Cardinality

namespace TypeExpr

/-- Whether a type can be called like a function. -/
def isCallable : TypeExpr Value → Bool
  | cls _ | generic .. | union .named _ | literal _ => true
  | _ => false

end TypeExpr

namespace Value

/-- Whether a value can be called without arguments. -/
def isCallable : Value → Bool
  | callable _ => true
  | type t => t.isCallable
  | _ => false

/-- The texts of a list, or `none` when an element is not one. -/
def allTexts? : List Value → Option (List String)
  | [] => some []
  | v :: vs => do
    let s ← v.text?
    return s :: (← allTexts? vs)

/-- A text, or a list of texts, as a list. -/
def toTexts (option : TextsOption) (v : Value) : Except DefinitionFault (List String) :=
  match v.text?, v with
  | some s, _ => .ok [s]
  | none, list xs | none, tuple xs =>
    match allTexts? xs with
    | some ss => .ok ss
    | none => .error (.notTexts option)
  | none, _ => .error (.notTexts option)

/-- As `toTexts`, where anything that counts as false stands for no texts. -/
def toOptionalTexts (option : TextsOption) (v : Value) : Except DefinitionFault (List String) :=
  if v.truthy then v.toTexts option else .ok []

end Value

namespace Target

/-- The target that a value is: a class, a name or something that can be called. -/
def ofValue? (v : Value) : Option (Target Value) :=
  match v.text?, v with
  | some s, _ => some (.named s)
  | none, .type (.cls c) => some (.cls c)
  | none, v => if v.isCallable then some (.resolver v) else none

/-- The target of a relationship of the given type. -/
def check (edgeType : String) (v : Value) : Except DefinitionFault (Target Value) :=
  if edgeType.isEmpty then .error .emptyEdgeType
  else if v.isNull then .error (.noTarget edgeType)
  else
    match ofValue? v with
    | some t => .ok t
    | none => .error (.badTarget edgeType v.kindName)

end Target

namespace Value

/-- The direction that a value is, as a member of its constant set. -/
def direction? : Value → Option Direction
  | member ⟨.direction, _, name, _⟩ => Direction.ofName? name
  | _ => none

/-- The cardinality that a value is, as a member of its constant set. -/
def cardinality? : Value → Option Cardinality
  | member ⟨.cardinality, _, name, _⟩ => Cardinality.ofName? name
  | _ => none

end Value

namespace Choice

/-- The choice that a value is, where the members of the closed set are told by what they are. -/
def ofValue {β : Type} (member? : Value → Option β) (v : Value) : Choice β Value :=
  match member? v with
  | some b => known b
  | none => other v

/-- The text of a choice from a closed set; of any other value its attribute `value`. -/
def toValue {β : Type} (text : β → String) : Choice β Value → Except Error Value
  | known b => .ok (.str (text b))
  | other v => v.getAttribute "value"

end Choice

namespace Cardinality

/-- A cardinality as a value; one that counts as false is none. -/
def valueOf : Option (Choice Cardinality Value) → Except Error Value
  | none => .ok .null
  | some (.known c) => .ok (.str c.text)
  | some (.other v) => if v.truthy then v.getAttribute "value" else .ok .null

end Cardinality

namespace Relationship

/-- The options of a relationship. -/
def optionNames : List String :=
  ["edge_type", "type", "target", "direction", "cardinality", "owner", "inverse_property", "join_columns",
    "join_table", "cascade", "eager", "edge_properties"]

/-- The cardinality as a value. -/
def cardinalityValue (r : Relationship Value) : Except Error Value := Cardinality.valueOf r.cardinality

/-- Faults of the definition and failures of the values in it, told apart until the fault has a place. -/
abbrev Building := Except (DefinitionFault ⊕ Error)

namespace Building

variable {α : Type}

def ofFault : Except DefinitionFault α → Building α
  | .ok a => .ok a
  | .error e => .error (.inl e)

def ofError : Except Error α → Building α
  | .ok a => .ok a
  | .error e => .error (.inr e)

def fault (e : DefinitionFault) : Building α := .error (.inl e)

end Building

def directionOf (given : Given) : Building (Choice Direction Value) :=
  match given.lookup "direction" with
  | none => .ok (.known .outgoing)
  | some v =>
    match v.text? with
    | some s => Building.ofFault ((Direction.read s).map .known)
    | none => .ok (.ofValue Value.direction? v)

def cardinalityOf (given : Given) : Building (Option (Choice Cardinality Value)) :=
  match given.lookup "cardinality" with
  | none | some .null => .ok none
  | some v =>
    match v.text? with
    | some s => Building.ofFault ((Cardinality.read s).map fun c => some (.known c))
    | none => .ok (some (.ofValue Value.cardinality? v))

/-- How many join columns a cardinality allows, and whether it allows any. -/
def joinAllowance : Option (Choice Cardinality Value) → Nat × Bool
  | none | some (.known .oneToMany) => (1, false)
  | some (.known .manyToMany) => (2, true)
  | some (.known _) | some (.other _) => (1, true)

def isManyToMany : Option (Choice Cardinality Value) → Bool
  | some (.known .manyToMany) => true
  | _ => false

/-- The word for a cardinality in the message about its join columns. -/
def shapeText : Option (Choice Cardinality Value) → Except Error String
  | none => .ok "no"
  | some (.known c) => .ok c.text
  | some (.other v) => if v.truthy then (v.getAttribute "value").map Value.display else .ok "no"

/-- Checks the join configuration against owner and cardinality. -/
def checkJoin (cardinality : Option (Choice Cardinality Value)) (owner : Bool) (columns : List String)
    (table : Value) : Building Unit := do
  if (!columns.isEmpty || table.truthy) && !owner then Building.fault .joinWithoutOwner
  if table.truthy && !isManyToMany cardinality then Building.fault .joinTableShape
  if !columns.isEmpty then
    let (expected, allowed) := joinAllowance cardinality
    if !allowed || columns.length > expected then
      let shape ← Building.ofError (shapeText cardinality)
      Building.fault (.joinColumnCount expected shape)

def flagOf (given : Given) (name : String) : Bool := ((given.lookup name).map Value.truthy).getD false

/-- Builds a relationship from checked option names. -/
def build (given : Given) : Building (Relationship Value) := do
  let some edgeType := ((given.lookup "edge_type").getD ((given.lookup "type").getD .null)).text?
    | Building.fault .noEdgeType
  let direction ← directionOf given
  let cardinality ← cardinalityOf given
  let columns ← Building.ofFault (((given.lookup "join_columns").getD .null).toOptionalTexts .joinColumns)
  let table := (given.lookup "join_table").getD .null
  let owner := flagOf given "owner"
  checkJoin cardinality owner columns table
  let cascade ← match given.lookup "cascade" with
    | none => Except.ok (Cascade.flag false)
    | some (.bool b) => .ok (.flag b)
    | some v => Building.ofFault ((v.toTexts .cascade).map .operations)
  let properties ←
    Building.ofFault (((given.lookup "edge_properties").getD .null).toOptionalTexts .edgeProperties)
  let target ← Building.ofFault (Target.check edgeType ((given.lookup "target").getD .null))
  return {
    edgeType, target, direction, cardinality, owner
    inverse := (given.lookup "inverse_property").getD .null
    joinColumns := columns
    joinTable := table
    cascade
    eager := flagOf given "eager"
    edgeProperties := properties }

/-- The relationship that the entries of a dictionary describe, for a property of a class. -/
def ofEntries (cls key : String) (es : List (Value × Value)) : Except Error (Relationship Value) := do
  let site : Site := ⟨some cls, some key⟩
  Given.checkKeys optionNames es (.unknownRelationshipOptions cls key) site
  match build (.ofEntries es) with
  | .ok r => return r
  | .error (.inl fault) => .error (.definition (.invalidRelationship cls key fault) site)
  | .error (.inr e) => .error e

/-- The fields of a relationship. -/
def fieldNames : List String :=
  ["edge_type", "target", "direction", "cardinality", "owner", "inverse_property", "join_columns", "join_table",
    "cascade", "eager", "edge_properties"]

/-- A direction given by the name of its constant. -/
def directionField (given : Given) : Except Error (Choice Direction Value) :=
  match given.lookup "direction" with
  | none => .ok (.known .outgoing)
  | some v =>
    match v.text? with
    | some s =>
      match Direction.ofName? s with
      | some d => .ok (.known d)
      | none => .error (.failure .key)
    | none => .ok (.ofValue Value.direction? v)

/-- A cardinality given by the name of its constant. -/
def cardinalityField (given : Given) : Except Error (Option (Choice Cardinality Value)) :=
  match given.lookup "cardinality" with
  | none | some .null => .ok none
  | some v =>
    match v.text? with
    | some s =>
      match Cardinality.ofName? s with
      | some c => .ok (some (.known c))
      | none => .error (.failure .key)
    | none => .ok (some (.ofValue Value.cardinality? v))

/-- Texts that a field holds. -/
def textsField (given : Given) (name : String) : List String :=
  match given.lookup name with
  | some (.list vs) | some (.tuple vs) => vs.filterMap (·.text?)
  | _ => []

/-- A relationship given by its fields. Only the edge type and the target are checked. -/
def ofFields (given : Given) : Except Error (Relationship Value) := do
  let direction ← directionField given
  let cardinality ← cardinalityField given
  let some edgeType := given.lookup "edge_type" | .error (.failure .kind)
  let some target := given.lookup "target" | .error (.failure .kind)
  if !(given.map (·.1)).all (fieldNames.contains ·) then .error (.failure .kind)
  let edgeType := if edgeType.truthy then edgeType.display else ""
  let target ← match Target.check edgeType target with
    | .ok t => Except.ok t
    | .error fault => .error (.definitionAnywhere fault)
  let cascade := match given.lookup "cascade" with
    | some (.bool b) => Cascade.flag b
    | some _ => .operations (textsField given "cascade")
    | none => .flag false
  return {
    edgeType, target, direction, cardinality, cascade
    owner := flagOf given "owner"
    inverse := (given.lookup "inverse_property").getD .null
    joinColumns := textsField given "join_columns"
    joinTable := (given.lookup "join_table").getD .null
    eager := flagOf given "eager"
    edgeProperties := textsField given "edge_properties" }

end Relationship

end Trischema
