/-!
Sorting by insertion. The sorted part starts as the leading run of a list, and every further element is put
into it by halving. Where the elements are in no total order the result is that of this procedure.
-/

namespace Trischema

namespace Insertion

variable {α : Type}

/-- Splits a list after its longest start in which each element and the next one are as `accept` asks. -/
def run (accept : α → α → Bool) (last : α) : List α → List α × List α
  | [] => ([], [])
  | x :: xs =>
    if accept last x then
      let (start, rest) := run accept x xs
      (x :: start, rest)
    else ([], x :: xs)

/-- The sorted leading run of a list with its rest. A list that starts downward is read up to where it stops
going down. -/
def leadingRun (before : α → α → Bool) : List α → List α × List α
  | [] => ([], [])
  | [x] => ([x], [])
  | x :: y :: rest =>
    if before y x then
      let (start, rest) := run (fun a b => before b a) x (y :: rest)
      ((x :: start).reverse, rest)
    else
      let (start, rest) := run (fun a b => !before b a) x (y :: rest)
      (x :: start, rest)

/-- The place of a new element between two places of a sorted part, found by halving. -/
def place (before : α → α → Bool) (x : α) (sorted : Array α) (low high : Nat) : Nat :=
  if low < high then
    let middle := (low + high) / 2
    if (sorted[middle]?).any (before x) then place before x sorted low middle
    else place before x sorted (middle + 1) high
  else low
termination_by high - low

/-- Puts a new element into a sorted part, behind its equals. -/
def insert (before : α → α → Bool) (sorted : Array α) (x : α) : Array α :=
  let i := place before x sorted 0 sorted.size
  (sorted.extract 0 i).push x ++ sorted.extract i sorted.size

/-- Sorts a list by insertion. -/
def sort (before : α → α → Bool) (xs : List α) : List α :=
  let (start, rest) := leadingRun before xs
  (rest.foldl (insert before) start.toArray).toList

end Insertion

end Trischema
