import Trischema.Value.Basic

/-!
Renewal: an instance that changed is the same instance wherever it is held. Renewing a value puts the new
state of an instance in every place where its old state stands.
-/

namespace Trischema

mutual

/-- A value with the new state of an instance in it. -/
def Value.renewed (new : Object Value) : Value → Value
  | .list xs => .list (renewedAll new xs)
  | .tuple xs => .tuple (renewedAll new xs)
  | .set xs => .set (renewedAll new xs)
  | .mapping es => .mapping (renewedEntries new es)
  | .object ⟨identity, cls, attrs, shared, pending⟩ =>
    if identity = new.identity then .object new
    else .object ⟨identity, cls, renewedNamed new attrs, shared, pending⟩
  | v => v

def renewedAll (new : Object Value) : List Value → List Value
  | [] => []
  | x :: xs => x.renewed new :: renewedAll new xs

def renewedEntries (new : Object Value) : List (Value × Value) → List (Value × Value)
  | [] => []
  | (k, v) :: es => (k.renewed new, v.renewed new) :: renewedEntries new es

def renewedNamed (new : Object Value) : List (String × Value) → List (String × Value)
  | [] => []
  | (k, v) :: es => (k, v.renewed new) :: renewedNamed new es

end

end Trischema
