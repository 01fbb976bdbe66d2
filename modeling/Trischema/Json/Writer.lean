import Trischema.Json.Basic

/-!
Documents as text. Every character outside ASCII is written as one or two escapes, so the text is
ASCII whatever the document holds. A layout is either one line, with chosen separators, or one member
per line with a chosen indent. The limits of an interpreter on the digits of an integer and on the depth of
a document, which can be set, are not modelled: every document has a text.
-/

namespace Trischema

namespace Json

/-- How the members of arrays and objects are set apart. -/
inductive Layout
  | line (item member : String)
  | indented (width : Nat)
  deriving DecidableEq, Repr

namespace Layout

/-- One line with a blank after every comma and colon. -/
def spaced : Layout := line ", " ": "

/-- One line without blanks. -/
def compact : Layout := line "," ":"

end Layout

/-- One UTF-16 unit as an escape. -/
def unitEscape (n : Nat) : List Char := '\\' :: 'u' :: Text.hex 4 n

/-- One character of a written text. -/
def escaped (c : Char) : List Char :=
  if c = Text.doubleMark then ['\\', c]
  else if c = '\\' then ['\\', '\\']
  else if c = '\n' then ['\\', 'n']
  else if c = '\r' then ['\\', 'r']
  else if c = '\t' then ['\\', 't']
  else if c.toNat = 8 then ['\\', 'b']
  else if c.toNat = 12 then ['\\', 'f']
  else if 0x20 ≤ c.toNat ∧ c.toNat < 0x7F then [c]
  else if c.toNat < 0x10000 then unitEscape c.toNat
  else
    let n := c.toNat - 0x10000
    unitEscape (0xD800 + n / 0x400) ++ unitEscape (0xDC00 + n % 0x400)

/-- A text between double quotes. -/
def quotedText (s : String) : List Char :=
  Text.doubleMark :: s.toList.flatMap escaped ++ [Text.doubleMark]

/-- Parts between brackets, set apart by commas; `depth` counts the brackets around them. -/
def bracketed (layout : Layout) (depth : Nat) (opening closing : Char) (parts : List (List Char)) : List Char :=
  match parts, layout with
  | [], _ => [opening, closing]
  | _, .line item _ => opening :: List.intercalate item.toList parts ++ [closing]
  | _, .indented width =>
    let margin (d : Nat) : List Char := '\n' :: List.replicate (d * width) ' '
    opening :: margin (depth + 1) ++ List.intercalate (',' :: margin (depth + 1)) parts ++ margin depth ++ [closing]

def memberMark : Layout → List Char
  | .line _ member => member.toList
  | .indented _ => [':', ' ']

mutual

def write (layout : Layout) (depth : Nat) : Json → List Char
  | null => "null".toList
  | bool b => (if b then "true" else "false").toList
  | int n => (toString n).toList
  | float x => (NumberStyle.document.render x).toList
  | str s => quotedText s
  | array items => bracketed layout depth '[' ']' (writeItems layout (depth + 1) items)
  | object members => bracketed layout depth '\x7b' '\x7d' (writeMembers layout (depth + 1) members)

def writeItems (layout : Layout) (depth : Nat) : List Json → List (List Char)
  | [] => []
  | x :: xs => write layout depth x :: writeItems layout depth xs

def writeMembers (layout : Layout) (depth : Nat) : List (String × Json) → List (List Char)
  | [] => []
  | (k, x) :: ms => (quotedText k ++ memberMark layout ++ write layout depth x) :: writeMembers layout depth ms

end

/-- A document as text. -/
def render (layout : Layout) (x : Json) : String := String.ofList (write layout 0 x)

end Json

namespace Value

/-- A value as the text of a document. -/
def toJsonText (layout : Json.Layout) (unknown : Json.Unknown) (v : Value) : Except Error String :=
  (Json.ofValue unknown v).map (Json.render layout)

end Value

end Trischema
