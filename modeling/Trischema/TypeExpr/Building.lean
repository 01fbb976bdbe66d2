import Trischema.Error
import Trischema.Value.Equality

/-!
Building type expressions from their parts. Unions are flat and name every alternative once, a union of
one type is that type, and what cannot stand in a type is refused.
-/

namespace Trischema

namespace TypeExpr

/-- Refuses what cannot be part of a type. -/
def refuse {α : Type} : Except Error α := .error (.failure .kind)

/-- Whether two type expressions are equal. -/
def same (t u : TypeExpr Value) : Bool := t.toValue.same u.toValue

/-- The first of equal types only. -/
def distinct (ts : List (TypeExpr Value)) : List (TypeExpr Value) :=
  ts.foldl (fun kept t => if kept.any (·.same t) then kept else kept ++ [t]) []

/-- A part of a type in the older vocabulary: nothing is the class of the absent value, a text a name
that is not known yet, and a tuple is refused. -/
def part : TypeExpr Value → Except Error (TypeExpr Value)
  | absent => .ok (builtin .unit)
  | object v =>
    match v.text?, v with
    | some s, _ => .ok (forward s)
    | none, .tuple _ => refuse
    | none, v => .ok (object v)
  | t => .ok t

/-- The alternatives of a union, or the type itself. -/
def alternatives : TypeExpr Value → List (TypeExpr Value)
  | union _ ts => ts
  | t => [t]

/-- A union of several types; one type is no union. -/
def ofAlternatives (form : UnionForm) : List (TypeExpr Value) → TypeExpr Value
  | [t] => t
  | ts => union form ts

/-- The union of some types by name. -/
def unionOf (ts : List (TypeExpr Value)) : Except Error (TypeExpr Value) := do
  if ts.isEmpty then refuse
  let flat := (← ts.mapM part).flatMap alternatives
  if flat.all hashable then return ofAlternatives .named (distinct flat) else refuse

/-- A type or nothing. -/
def optional (t : TypeExpr Value) : Except Error (TypeExpr Value) := do unionOf [← t.part, builtin .unit]

/-- Whether a bar beside the type makes a union by name. -/
def bindsByName : TypeExpr Value → Bool
  | union .named _ | literal _ | generic .sequence _ => true
  | _ => false

/-- Whether bars between such types make a union with bars. -/
def bindsByBar : TypeExpr Value → Bool
  | absent | cls _ | generic .. | union .barred _ => true
  | _ => false

/-- The alternatives of a type between bars. -/
def barredAlternatives : TypeExpr Value → List (TypeExpr Value)
  | absent => [builtin .unit]
  | union .barred ts => ts
  | t => [t]

/-- Two types with a bar between them. -/
def either (t u : TypeExpr Value) : Except Error (TypeExpr Value) :=
  if t.bindsByName || u.bindsByName then unionOf [t, u]
  else if t.bindsByBar && u.bindsByBar && !(t.isAbsent && u.isAbsent) then
    .ok (ofAlternatives .barred (distinct (t.barredAlternatives ++ u.barredAlternatives)))
  else refuse

/-- Types with bars between them, from left to right. -/
def barred : List (TypeExpr Value) → Except Error (TypeExpr Value)
  | [] => refuse
  | t :: ts => ts.foldlM either t

/-- The parameters that one expression gives: the elements of a tuple, or itself. -/
def parameters : TypeExpr Value → List (TypeExpr Value)
  | object (.tuple vs) => ofValues vs
  | t => [t]

/-- A parameterised type with one parameter. -/
def parameterised (head : Head) (t : TypeExpr Value) : TypeExpr Value := generic head t.parameters

/-- An array in the older vocabulary. -/
def sequence (t : TypeExpr Value) : Except Error (TypeExpr Value) :=
  match t.parameters with
  | [u] => do return generic .sequence [← u.part]
  | _ => refuse

/-- The values that one value gives to a literal type: those of a literal type, or itself. -/
def literalValues : Value → List Value
  | .type (literal vs) => vs
  | v => [v]

/-- The first of equal values of one kind only; values that may not be keys are all kept. -/
def distinctValues (vs : List Value) : List Value :=
  if allHashable vs then
    vs.foldl (fun kept v => if kept.any fun w => w.kindName == v.kindName && w.same v then kept else kept ++ [v]) []
  else vs

/-- The type of some values. -/
def literalOf (vs : List Value) : TypeExpr Value := literal (distinctValues (vs.flatMap literalValues))

end TypeExpr

end Trischema
