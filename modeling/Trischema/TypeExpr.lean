import Trischema.Class

/-!
Type expressions as a model author writes them. `TypeExpr α` is open in the values `α` that may stand in
a type: the alternatives of a literal type and objects that are no type at all.
-/

namespace Trischema

/-- The heads of parameterised types. `sequence` is the older spelling of `list`; a `tuple` has as many
elements as it has parameters, `tupleOf` any number of one type. -/
inductive Head
  | list | set | frozenSet | tuple | tupleOf | mapping | sequence
  deriving DecidableEq, Repr

/-- How a union was written: by name, or with bars between its alternatives. -/
inductive UnionForm
  | named | barred
  deriving DecidableEq, Repr

inductive TypeExpr (α : Type)
  /-- no declared type -/
  | absent
  | cls (c : Class α)
  | generic (head : Head) (args : List (TypeExpr α))
  | union (form : UnionForm) (alternatives : List (TypeExpr α))
  | literal (values : List α)
  /-- a list that stands for an array of its only element -/
  | shorthand (elements : List (TypeExpr α))
  /-- a name that stands for a type not known yet -/
  | forward (name : String)
  /-- an object that is no type -/
  | object (v : α)

namespace TypeExpr

variable {α : Type}

instance : Inhabited (TypeExpr α) := ⟨absent⟩

def builtin (b : Builtin) : TypeExpr α := cls (.ofBuiltin b)

/-- The class, when the expression is one. -/
def class? : TypeExpr α → Option (Class α)
  | cls c => some c
  | _ => none

/-- Whether there is no declared type. -/
def isAbsent : TypeExpr α → Bool
  | absent => true
  | _ => false

/-- Whether the expression is the class of the absent value. -/
def isUnit : TypeExpr α → Bool
  | cls c => c.isExactly .unit
  | _ => false

mutual

/-- The classes that a type expression is made of, from left to right. -/
def classNames : TypeExpr α → List ClassName
  | cls c => [c.name]
  | generic _ ts | union _ ts | shorthand ts => classNamesAll ts
  | _ => []

def classNamesAll : List (TypeExpr α) → List ClassName
  | [] => []
  | t :: ts => classNames t ++ classNamesAll ts

end

end TypeExpr

namespace Head

/-- The builtin class that a parameterised type narrows. -/
def origin : Head → Builtin
  | list | sequence => .list
  | set => .set
  | frozenSet => .frozenSet
  | tuple | tupleOf => .tuple
  | mapping => .mapping

/-- Whether values of the type are arrays. -/
def isArray : Head → Bool
  | mapping => false
  | _ => true

end Head

end Trischema
