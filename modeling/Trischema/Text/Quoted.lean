import Trischema.Text.Printable

/-!
Quoted listings of texts and of byte strings. A text stands between single quotes, or between double
quotes when it holds a single one and no double one; the quote in use, the backslash and everything
without a visible form are escaped.
-/

namespace Trischema

namespace Text

/-- The single quote. -/
def quoteMark : Char := '\x27'

/-- The double quote. -/
def doubleMark : Char := '\x22'

def hexDigit (n : Nat) : Char :=
  if n < 10 then Char.ofNat (48 + n) else Char.ofNat (87 + n)

/-- The value of a hexadecimal digit in either case. -/
def hexDigitValue? (c : Char) : Option Nat :=
  if c.isDigit then some (c.toNat - '0'.toNat)
  else if 'a' ≤ c ∧ c ≤ 'f' then some (c.toNat - 'a'.toNat + 10)
  else if 'A' ≤ c ∧ c ≤ 'F' then some (c.toNat - 'A'.toNat + 10)
  else none

/-- A number in lower-case hexadecimal with a fixed count of digits. -/
def hex (width n : Nat) : List Char :=
  (List.range width).map fun i => hexDigit (n / Nat.pow 16 (width - 1 - i) % 16)

/-- The quote that surrounds a text. -/
def markFor (cs : List Char) : Char :=
  if cs.contains quoteMark && !cs.contains doubleMark then doubleMark else quoteMark

/-- One character of a quoted text. -/
def escaped (mark c : Char) : List Char :=
  if c = mark ∨ c = '\\' then ['\\', c]
  else if c = '\n' then ['\\', 'n']
  else if c = '\r' then ['\\', 'r']
  else if c = '\t' then ['\\', 't']
  else if isPrintable c then [c]
  else if c.toNat < 0x100 then '\\' :: 'x' :: hex 2 c.toNat
  else if c.toNat < 0x10000 then '\\' :: 'u' :: hex 4 c.toNat
  else '\\' :: 'U' :: hex 8 c.toNat

/-- A text as it is listed. -/
def quoted (s : String) : String :=
  let mark := markFor s.toList
  String.ofList (mark :: s.toList.flatMap (escaped mark) ++ [mark])

/-- One byte of a quoted byte string. -/
def escapedByte (mark : Char) (b : UInt8) : List Char :=
  let c := Char.ofNat b.toNat
  if c = mark ∨ c = '\\' then ['\\', c]
  else if c = '\n' then ['\\', 'n']
  else if c = '\r' then ['\\', 'r']
  else if c = '\t' then ['\\', 't']
  else if 0x20 ≤ b.toNat ∧ b.toNat < 0x7F then [c]
  else '\\' :: 'x' :: hex 2 b.toNat

/-- A byte string as it is listed, with the letter `b` in front. -/
def quotedBytes (bs : List UInt8) : String :=
  let mark := markFor (bs.map fun b => Char.ofNat b.toNat)
  String.ofList ('b' :: mark :: bs.flatMap (escapedByte mark) ++ [mark])

/-- Items between an opening and a closing text, set apart by a comma and a blank. -/
def listed (opening closing : String) (items : List String) : String :=
  opening ++ ", ".intercalate items ++ closing

/-- A list of texts as it is listed. -/
def quotedList (items : List String) : String := listed "[" "]" (items.map quoted)

end Text

end Trischema
