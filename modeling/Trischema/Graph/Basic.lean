import Trischema.Property.Basic
import Trischema.Value.Keyed

/-!
Graph schemas: one node with flat properties, and the edges that lead from it. Embedded classes are opaque
objects here; edges are told apart by source, type and target.
-/

namespace Trischema

/-- A property of a node: one scalar, or an array of them. -/
structure NodeProperty where
  name : String
  scalar : Scalar
  isArray : Bool
  unique : Option Bool
  optional : Option Bool
  isIdentifier : Bool
  enum : Option (List Value)
  default : Option Value

namespace NodeProperty

/-- The type of a property as it is written. -/
def typeText (p : NodeProperty) : String := p.scalar.text ++ (if p.isArray then "[]" else "")

def toRecord (p : NodeProperty) : Value := .record (
  [("type", .str p.typeText)]
    ++ optionalEntry "unique" .bool p.unique
    ++ optionalEntry "optional" .bool p.optional
    ++ flagEntry "is_identifier" p.isIdentifier
    ++ optionalEntry "enum" .list p.enum
    ++ optionalEntry "default" Value.rendered p.default)

end NodeProperty

/-- The node of a class; `together` are its composite keys. -/
structure Node where
  label : String
  properties : List NodeProperty
  together : List (List String)

namespace Node

def propertyNames (n : Node) : List String := n.properties.map (·.name)

/-- Whether the property at a place is the one that its name finds: no earlier one has that name. -/
def isFound (n : Node) (place : Nat) : Bool :=
  match n.properties[place]? with
  | some p => !(n.properties.take place).any (·.name == p.name)
  | none => false

/-- Whether each property is the one that its name finds. -/
def foundByName (n : Node) : List Bool := (List.range n.properties.length).map n.isFound

def toRecord (n : Node) : Value := .record (
  [("label", .str n.label), ("properties", .keyed (n.properties.map fun p => (p.name, p.toRecord)))]
    ++ Descriptor.togetherEntry n.together)

/-- The name of a constraint over some properties of a node. -/
def constraintName (n : Node) (names : List String) (suffix : String) : String :=
  n.label ++ "_" ++ "_".intercalate names ++ suffix

/-- A statement that creates a constraint. -/
def constraint (n : Node) (name requirement : String) : String :=
  "CREATE CONSTRAINT " ++ name ++ " IF NOT EXISTS FOR (n:" ++ n.label ++ ") REQUIRE " ++ requirement

def uniqueConstraint (n : Node) (name : String) : String :=
  n.constraint (n.constraintName [name] "_unique") ("n." ++ name ++ " IS UNIQUE")

def keyConstraint (n : Node) (names : List String) : String :=
  n.constraint (n.constraintName names "_key")
    ("(" ++ ", ".intercalate (names.map ("n." ++ ·)) ++ ") IS NODE KEY")

/-- The statements that make the unique properties and the composite keys of a node unique. -/
def constraints (n : Node) : List String :=
  (n.properties.filter fun p => p.unique.getD false).map (fun p => n.uniqueConstraint p.name)
    ++ n.together.map n.keyConstraint

end Node

/-- An edge from the node of a class; `key` is the property that declares it and `properties` are the
names of the source's properties that are copied onto it. -/
structure Edge where
  source : String
  target : String
  type : String
  direction : Choice Direction Value
  key : String
  cardinality : Option (Choice Cardinality Value)
  properties : List String

namespace Edge

/-- What tells edges apart. -/
def identity (e : Edge) : String × String × String := (e.source, e.type, e.target)

/-- An edge as a pattern of two nodes and an arrow. -/
def pattern (e : Edge) : String :=
  let (before, after) := match e.direction with
    | .known .incoming => ("<-[:", "]-")
    | .known .both => ("-[:", "]-")
    | .known .outgoing | .other _ => ("-[:", "]->")
  "(:" ++ e.source ++ ")" ++ before ++ e.type ++ after ++ "(:" ++ e.target ++ ")"

def toRecord (e : Edge) : Except Error Value := do
  let direction ← e.direction.toValue Direction.text
  let cardinality ← Cardinality.valueOf e.cardinality
  return .record [
    ("source_label", .str e.source), ("target_label", .str e.target), ("type", .str e.type),
    ("direction", direction), ("key", .str e.key), ("cardinality", cardinality),
    ("edge_properties", .texts e.properties)]

end Edge

/-- The graph schema of a class. -/
structure Graph where
  nodes : List Node
  edges : List Edge

namespace Graph

/-- The first node of a label. -/
def node? (g : Graph) (label : String) : Option Node := g.nodes.find? (·.label == label)

def constraints (g : Graph) : List String := g.nodes.flatMap (·.constraints)

def patterns (g : Graph) : List String := g.edges.map (·.pattern)

def toRecord (g : Graph) : Except Error Value := do
  return .record [("nodes", .list (g.nodes.map (·.toRecord))),
    ("relationships", .list (← g.edges.mapM (·.toRecord)))]

end Graph

end Trischema
