import Trischema.Json.Writer
import Trischema.Number.Reading

/-!
Reading documents. The reader accepts blanks between tokens, any order and repetition of members, all
escapes, and the names of the numbers without digits. A parser takes the characters that are left and
returns what it read with the rest, which is never longer. As in writing, the limits of an interpreter on
the digits of an integer and on the depth of a document are not modelled.
-/

namespace Trischema

namespace Json

def isBlank (c : Char) : Bool := c == ' ' || c == '\t' || c == '\n' || c == '\r'

def skipBlanks (cs : List Char) : List Char := cs.dropWhile isBlank

/-- Four hexadecimal digits. -/
def unit? : List Char → Option (Nat × List Char)
  | a :: b :: c :: d :: cs => do
    let a ← Text.hexDigitValue? a
    let b ← Text.hexDigitValue? b
    let c ← Text.hexDigitValue? c
    let d ← Text.hexDigitValue? d
    some (((a * 16 + b) * 16 + c) * 16 + d, cs)
  | _ => none

def isHigh (n : Nat) : Bool := 0xD800 ≤ n && n ≤ 0xDBFF

def isLow (n : Nat) : Bool := 0xDC00 ≤ n && n ≤ 0xDFFF

/-- What a single letter after a backslash stands for. -/
def shortEscape? : Char → Option Char
  | '\x22' => some '\x22'
  | '\\' => some '\\'
  | '/' => some '/'
  | 'b' => some '\x08'
  | 'f' => some '\x0c'
  | 'n' => some '\n'
  | 'r' => some '\r'
  | 't' => some '\t'
  | _ => none

/-- The character that follows a backslash. Two units that belong together make one character; a unit
that stands alone in the range of halves is no character and becomes the replacement. -/
def escape? : List Char → Option (Char × List Char)
  | 'u' :: cs => do
    let (n, rest) ← unit? cs
    if isHigh n then
      match rest with
      | '\\' :: 'u' :: more =>
        match unit? more with
        | some (m, rest') =>
          if isLow m then some (Char.ofNat (0x10000 + (n - 0xD800) * 0x400 + (m - 0xDC00)), rest')
          else some ('\ufffd', rest)
        | none => some ('\ufffd', rest)
      | _ => some ('\ufffd', rest)
    else if isLow n then some ('\ufffd', rest)
    else some (Char.ofNat n, rest)
  | c :: cs => (shortEscape? c).map (·, cs)
  | [] => none

/-- The rest of a text after its opening quote. The fuel is the number of characters left. -/
def text? : Nat → List Char → Option (List Char × List Char)
  | 0, _ => none
  | _ + 1, [] => none
  | fuel + 1, c :: cs =>
    if c = Text.doubleMark then some ([], cs)
    else if c = '\\' then do
      let (d, rest) ← escape? cs
      let (ds, rest) ← text? fuel rest
      some (d :: ds, rest)
    else if c.toNat < 0x20 then none
    else do
      let (ds, rest) ← text? fuel cs
      some (c :: ds, rest)

/-- The digits of a whole number without leading zeros. -/
def wholeDigits? (cs : List Char) : Option (List Char × List Char) :=
  match cs with
  | '0' :: rest => some (['0'], rest)
  | _ =>
    let ds := cs.takeWhile Char.isDigit
    if ds.isEmpty then none else some (ds, cs.dropWhile Char.isDigit)

/-- A fraction: a point and at least one digit. -/
def fractionDigits (cs : List Char) : List Char × List Char :=
  match cs with
  | '.' :: rest =>
    let ds := rest.takeWhile Char.isDigit
    if ds.isEmpty then ([], cs) else (ds, rest.dropWhile Char.isDigit)
  | _ => ([], cs)

/-- An exponent: a mark, an optional sign and at least one digit. -/
def exponentPart (cs : List Char) : Option Int × List Char :=
  match cs with
  | c :: rest =>
    if c = 'e' ∨ c = 'E' then
      let (negative, ds) := splitSign rest
      let digits := ds.takeWhile Char.isDigit
      if digits.isEmpty then (none, cs)
      else
        (some (if negative then -(digitsValue digits : Int) else digitsValue digits), ds.dropWhile Char.isDigit)
    else (none, cs)
  | [] => (none, cs)

/-- A number; it is whole when it has neither a fraction nor an exponent. -/
def number? (cs : List Char) : Option (Json × List Char) := do
  let negative := cs.head? == some '-'
  let (whole, rest) ← wholeDigits? (if negative then cs.drop 1 else cs)
  let (fraction, rest) := fractionDigits rest
  let (exponent, rest) := exponentPart rest
  if fraction.isEmpty ∧ exponent.isNone then
    let n : Int := digitsValue whole
    some (int (if negative then -n else n), rest)
  else
    let power := exponent.getD 0 - fraction.length
    some (float (Binary64.ofDecimal negative (digitsValue (whole ++ fraction)) power), rest)

/-- The rest of a text after a fixed word. -/
def word? (w : String) (cs : List Char) : Option (List Char) :=
  if w.toList.isPrefixOf cs then some (cs.drop w.length) else none

/-- The documents that are words. -/
def words : List (String × Json) :=
  [("null", null), ("true", bool true), ("false", bool false), ("NaN", float .nan),
    ("Infinity", float (.infinite false)), ("-Infinity", float (.infinite true))]

/-- A document without parts. -/
def leaf? (cs : List Char) : Option (Json × List Char) :=
  match words.findSome? (fun (w, x) => (word? w cs).map (x, ·)) with
  | some r => some r
  | none => number? cs

mutual

/-- A document at the start of the characters. The fuel goes down by at most two for every character that is
read, so that it also bounds the length of texts. -/
def value? : Nat → List Char → Option (Json × List Char)
  | 0, _ => none
  | fuel + 1, cs =>
    match cs with
    | [] => none
    | c :: rest =>
      if c = Text.doubleMark then
        (text? fuel rest).map fun (s, rest) => (str (String.ofList s), rest)
      else if c = '[' then
        match skipBlanks rest with
        | ']' :: rest => some (array [], rest)
        | rest => (items? fuel rest).map fun (xs, rest) => (array xs, rest)
      else if c = '\x7b' then
        let rest := skipBlanks rest
        if rest.head? = some '\x7d' then some (object [], rest.drop 1)
        else (members? fuel rest).map fun (ms, rest) => (object ms, rest)
      else leaf? cs

def items? : Nat → List Char → Option (List Json × List Char)
  | 0, _ => none
  | fuel + 1, cs => do
    let (x, rest) ← value? fuel cs
    match skipBlanks rest with
    | ',' :: rest => do
      let (xs, rest) ← items? fuel (skipBlanks rest)
      some (x :: xs, rest)
    | ']' :: rest => some ([x], rest)
    | _ => none

def members? : Nat → List Char → Option (List (String × Json) × List Char)
  | 0, _ => none
  | fuel + 1, cs =>
    match cs with
    | [] => none
    | c :: rest =>
      if c = Text.doubleMark then do
        let (k, rest) ← text? fuel rest
        match skipBlanks rest with
        | ':' :: rest => do
          let (x, rest) ← value? fuel (skipBlanks rest)
          match skipBlanks rest with
          | ',' :: rest => do
            let (ms, rest) ← members? fuel (skipBlanks rest)
            some ((String.ofList k, x) :: ms, rest)
          | c :: rest => if c = '\x7d' then some ([(String.ofList k, x)], rest) else none
          | [] => none
        | _ => none
      else none

end

/-- Reads a text that is one document and nothing else. -/
def read? (s : String) : Option Json :=
  let cs := skipBlanks s.toList
  match value? (2 * cs.length + 2) cs with
  | some (x, rest) => if (skipBlanks rest).isEmpty then some x else none
  | none => none

end Json

end Trischema
