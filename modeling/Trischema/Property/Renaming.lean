import Trischema.Property.Basic

/-!
Renaming. A backend stores properties under names of its own; a renaming lists the keys that it stores
with those names.
-/

namespace Trischema

/-- Keys with the names that they are stored under, in the order of the properties. -/
abbrev Renaming := List (String × String)

namespace Renaming

/-- Whether a key is stored under some name. -/
def covers (names : Renaming) (key : String) : Bool := (names.lookup key).isSome

/-- The name of a key; a key that is not stored keeps its own. -/
def apply (names : Renaming) (key : String) : String := (names.lookup key).getD key

/-- Composite keys by stored names; one over a property that is not stored is left out. -/
def groups (names : Renaming) (together : List (List String)) : List (List String) :=
  (together.filter fun g => g.all names.covers).map fun g => g.map names.apply

/-- The stored name of a property: an identifier under the key that documents use is renamed. -/
def ofIdentifier (documentIdField idField : String) (p : Property) : String :=
  if p.isIdentifier && p.key == documentIdField then idField else p.key

end Renaming

end Trischema
