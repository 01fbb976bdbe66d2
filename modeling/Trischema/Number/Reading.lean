import Trischema.Number.Binary64
import Trischema.Text.Digits

/-!
Reading numbers from text: the literal form of decimals, and the more liberal forms in which whole
numbers may be written by hand (blanks around, a sign, single underscores between digits).
-/

namespace Trischema

/-- The value of a run of ASCII digits, most significant first. -/
def digitsValue (cs : List Char) : Nat :=
  cs.foldl (fun n c => 10 * n + (c.toNat - '0'.toNat)) 0

/-- Splits off a leading sign; the flag is set for a minus. -/
def splitSign : List Char → Bool × List Char
  | '-' :: cs => (true, cs)
  | '+' :: cs => (false, cs)
  | cs => (false, cs)

/-- The exponent part of a decimal: `e`, an optional sign and at least one digit. The empty text is the
exponent zero. -/
def readExponent? : List Char → Option Int
  | [] => some 0
  | c :: cs =>
    if c = 'e' ∨ c = 'E' then
      let (negative, ds) := splitSign cs
      if ds.isEmpty ∨ ¬ ds.all Char.isDigit then none
      else some (if negative then -(digitsValue ds : Int) else digitsValue ds)
    else none

/-- Reads groups of digits that are set apart by single underscores. `value?` says which characters are
digits; the flag is set when the character before was one. -/
def readGroups? (value? : Char → Option Nat) : (afterDigit : Bool) → (sum : Nat) → List Char → Option Nat
  | afterDigit, sum, [] => if afterDigit then some sum else none
  | afterDigit, sum, c :: cs =>
    match value? c with
    | some d => readGroups? value? true (10 * sum + d) cs
    | none => if c = '_' ∧ afterDigit then readGroups? value? false sum cs else none

/-- Reads a whole number as written by hand: blanks around it, a sign, digits of any script, and single
underscores between digits. -/
def readWhole? (s : String) : Option Int :=
  let (negative, cs) := splitSign (Text.trimBlanks s.toList)
  (readGroups? Text.digitValue? false 0 cs).map fun n => if negative then -(n : Int) else n

/-- As `readWhole?` with ASCII digits, where a point with nothing but zeros after it may follow. -/
def readWholeOrPointed? (s : String) : Option Int :=
  let (negative, cs) := splitSign (Text.trimBlanks s.toList)
  let fraction := (cs.dropWhile (· != '.')).drop 1
  let digit? (c : Char) : Option Nat := if c.isDigit then some (c.toNat - '0'.toNat) else none
  if fraction.all (· == '0') then
    (readGroups? digit? false 0 (cs.takeWhile (· != '.'))).map fun n => if negative then -(n : Int) else n
  else none

namespace Binary64

/-- Reads an unsigned decimal `ddd[.ddd][e±dd]` with at least one digit. -/
def readMagnitude? (negative : Bool) (cs : List Char) : Option Binary64 :=
  let whole := cs.takeWhile Char.isDigit
  let rest := cs.dropWhile Char.isDigit
  let (fraction, rest) :=
    match rest with
    | '.' :: ds => (ds.takeWhile Char.isDigit, ds.dropWhile Char.isDigit)
    | _ => ([], rest)
  if whole.isEmpty ∧ fraction.isEmpty then none
  else
    (readExponent? rest).map fun e =>
      ofDecimal negative (digitsValue (whole ++ fraction)) (e - fraction.length)

/-- Reads a decimal, an infinity or `nan`, with an optional sign. -/
def read? (s : String) : Option Binary64 :=
  let (negative, cs) := splitSign s.toList
  match String.ofList (cs.map Char.toLower) with
  | "nan" => some nan
  | "inf" | "infinity" => some (infinite negative)
  | _ => readMagnitude? negative cs

end Binary64

end Trischema
