import Trischema.TypeExpr

/-!
Relationships between classes: the direction of an edge, the shape of a relation and the link itself.
`Relationship α` is open in the values `α` of the options that are taken as they come.
-/

namespace Trischema

/-- The direction of an edge, seen from the declaring class. -/
inductive Direction
  | incoming | outgoing | both
  deriving DecidableEq, Repr

/-- How many instances stand on each side of a relation. -/
inductive Cardinality
  | oneToOne | oneToMany | manyToOne | manyToMany
  deriving DecidableEq, Repr

namespace Direction

def all : List Direction := [incoming, outgoing, both]

def text : Direction → String
  | incoming => "INCOMING"
  | outgoing => "OUTGOING"
  | both => "BOTH"

/-- The direction of a constant's name. -/
def ofName? (s : String) : Option Direction := all.find? (·.text == s)

end Direction

namespace Cardinality

def all : List Cardinality := [oneToOne, oneToMany, manyToOne, manyToMany]

def text : Cardinality → String
  | oneToOne => "one-to-one"
  | oneToMany => "one-to-many"
  | manyToOne => "many-to-one"
  | manyToMany => "many-to-many"

/-- The name of the constant. -/
def name : Cardinality → String
  | oneToOne => "ONE_TO_ONE"
  | oneToMany => "ONE_TO_MANY"
  | manyToOne => "MANY_TO_ONE"
  | manyToMany => "MANY_TO_MANY"

/-- The cardinality of a constant's name. -/
def ofName? (s : String) : Option Cardinality := all.find? (·.name == s)

end Cardinality

/-- An option that names a member of a closed set, or holds some other value. -/
inductive Choice (β α : Type)
  | known (b : β)
  | other (v : α)

/-- What a relationship points to: a class, the name of a registered one, or a resolver that is asked
when the relationship is compiled. -/
inductive Target (α : Type)
  | cls (c : Class α)
  | named (name : String)
  | resolver (v : α)

inductive Cascade
  | flag (b : Bool)
  | operations (names : List String)
  deriving DecidableEq, Repr

/-- Whether all operations are cascaded or none. -/
def Cascade.isFlag : Cascade → Bool
  | flag _ => true
  | operations _ => false

/-- A link from the declaring class to a target. -/
structure Relationship (α : Type) where
  edgeType : String
  target : Target α
  direction : Choice Direction α
  cardinality : Option (Choice Cardinality α)
  /-- whether the declaring class owns the join configuration -/
  owner : Bool
  inverse : α
  joinColumns : List String
  joinTable : α
  cascade : Cascade
  eager : Bool
  edgeProperties : List String

namespace Relationship

variable {α : Type}

/-- A target that is not a class is resolved only when it is needed. -/
def isDeferred (r : Relationship α) : Bool :=
  match r.target with
  | .cls _ => false
  | _ => true

end Relationship

end Trischema
