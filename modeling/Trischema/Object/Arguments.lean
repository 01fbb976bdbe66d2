import Trischema.Error

/-!
Arguments of calls. Values are bound to parameters by position first and by name after that; a parameter
without a default must be given, and nothing may be given twice.
-/

namespace Trischema

/-- A parameter of a function with what it is when it is not given. -/
structure Parameter where
  name : String
  default : Option Value

namespace Parameter

def required (name : String) : Parameter := ⟨name, none⟩

/-- A parameter that is absent unless it is given. -/
def optional (name : String) : Parameter := ⟨name, some .null⟩

/-- The value of a parameter. -/
def value (p : Parameter) (given : Given) : Except Error Value :=
  match given.lookup p.name, p.default with
  | some v, _ | none, some v => .ok v
  | none, none => .error (.failure .kind)

end Parameter

/-- The values of a call. -/
structure Arguments where
  positional : List Value := []
  named : Given := []

namespace Arguments

def isEmpty (a : Arguments) : Bool := a.positional.isEmpty && a.named.isEmpty

/-- The values of parameters in their order. -/
def bind (a : Arguments) (parameters : List Parameter) : Except Error (List Value) :=
  let count := a.positional.length
  let byName := (parameters.drop count).map (·.name)
  if count > parameters.length || !a.named.all fun (k, _) => byName.contains k then .error (.failure .kind)
  else
    let given := (parameters.map (·.name)).zip a.positional ++ a.named
    parameters.mapM (·.value given)

end Arguments

end Trischema
