import Trischema.Value.Basic

/-!
Records from lists of entries. Where a name occurs twice, the later value takes the place of the earlier.
-/

namespace Trischema

/-- Sets an entry of a list of entries: a known name keeps its place, a new one goes last. -/
def setNamed {α : Type} (entries : List (String × α)) (name : String) (a : α) : List (String × α) :=
  match entries with
  | [] => [(name, a)]
  | (k, b) :: rest => if k = name then (k, a) :: rest else (k, b) :: setNamed rest name a

/-- Collapses entries of one name to the last of them. -/
def collapse {α : Type} (entries : List (String × α)) : List (String × α) :=
  entries.foldl (fun es (k, a) => setNamed es k a) []

namespace Value

/-- A record in which later entries replace earlier ones of the same name. -/
def keyed (entries : List (String × Value)) : Value := record (collapse entries)

end Value

end Trischema
