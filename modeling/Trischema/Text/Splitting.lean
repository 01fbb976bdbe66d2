/-!
Splitting texts at a character: into all parts between its occurrences, or in two at the first of them.
-/

namespace Trischema

namespace Text

/-- The parts of a text between the occurrences of a character. -/
def splitAll (mark : Char) : List Char → List (List Char)
  | [] => [[]]
  | c :: cs =>
    match splitAll mark cs with
    | [] => [[c]]
    | part :: parts => if c = mark then [] :: part :: parts else (c :: part) :: parts

/-- A text cut at the first occurrence of a character: what stands before it, and what stands after. -/
def cutAt (mark : Char) (cs : List Char) : List Char × Option (List Char) :=
  (cs.takeWhile (· != mark), if cs.contains mark then some ((cs.dropWhile (· != mark)).drop 1) else none)

end Text

end Trischema
