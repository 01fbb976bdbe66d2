import Trischema.Text.Quoted

/-!
Percent coding: bytes of a text written as a percent sign and two hexadecimal digits. Decoding is total:
a percent sign without two digits stands for itself, and bytes that are no text become the replacement
character, one for each broken sequence.
-/

namespace Trischema

namespace Text

/-- A character whose first bytes were read: how many are missing, the value so far, and the range of the
next byte. -/
structure PartialChar where
  missing : Nat
  value : Nat
  low : Nat
  high : Nat
  deriving DecidableEq, Repr

/-- The character that stands for bytes that are no text. -/
def replacement : Char := '\ufffd'

/-- What the first byte of a character says: a character of one byte, the start of a longer one, or
neither. -/
def startChar (b : Nat) : List Char × Option PartialChar :=
  if b < 0x80 then ([Char.ofNat b], none)
  else if 0xC2 ≤ b ∧ b ≤ 0xDF then ([], some ⟨1, b - 0xC0, 0x80, 0xBF⟩)
  else if 0xE0 ≤ b ∧ b ≤ 0xEF then
    ([], some ⟨2, b - 0xE0, if b = 0xE0 then 0xA0 else 0x80, if b = 0xED then 0x9F else 0xBF⟩)
  else if 0xF0 ≤ b ∧ b ≤ 0xF4 then
    ([], some ⟨3, b - 0xF0, if b = 0xF0 then 0x90 else 0x80, if b = 0xF4 then 0x8F else 0xBF⟩)
  else ([replacement], none)

/-- Reads bytes as characters. -/
def decodeFrom : Option PartialChar → List Nat → List Char
  | none, [] => []
  | some _, [] => [replacement]
  | none, b :: bs =>
    let (cs, next) := startChar b
    cs ++ decodeFrom next bs
  | some p, b :: bs =>
    if p.low ≤ b ∧ b ≤ p.high then
      let value := p.value * 0x40 + (b - 0x80)
      if p.missing = 1 then Char.ofNat value :: decodeFrom none bs
      else decodeFrom (some ⟨p.missing - 1, value, 0x80, 0xBF⟩) bs
    else
      let (cs, next) := startChar b
      replacement :: cs ++ decodeFrom next bs

/-- The text of some bytes. -/
def decodeBytes (bs : List Nat) : String := String.ofList (decodeFrom none bs)

/-- The bytes of a character. -/
def bytesOf (c : Char) : List Nat := (String.ofList [c]).toUTF8.toList.map UInt8.toNat

/-- The bytes that a percent-coded text stands for. -/
def percentBytes : List Char → List Nat
  | '%' :: a :: b :: cs =>
    match hexDigitValue? a, hexDigitValue? b with
    | some x, some y => (16 * x + y) :: percentBytes cs
    | _, _ => '%'.toNat :: percentBytes (a :: b :: cs)
  | c :: cs => bytesOf c ++ percentBytes cs
  | [] => []

/-- The text that a percent-coded text stands for. -/
def percentDecode (s : String) : String := decodeBytes (percentBytes s.toList)

end Text

end Trischema
