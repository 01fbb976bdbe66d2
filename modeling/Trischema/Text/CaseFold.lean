/-!
Upper and lower case as far as the answer can be written in ASCII. Keywords are ASCII, so a text matches
one regardless of case exactly when this form of it does; letters whose other case lies outside ASCII
stay as they are.
-/

namespace Trischema

namespace Text

/-- The upper case of a character. Besides the ASCII letters, the dotless i, the long s, the sharp s and
the joined letters have an upper case in ASCII. -/
def upperOf (c : Char) : List Char :=
  match c.toNat with
  | 0xDF => ['S', 'S']
  | 0x131 => ['I']
  | 0x17F => ['S']
  | 0xFB00 => ['F', 'F']
  | 0xFB01 => ['F', 'I']
  | 0xFB02 => ['F', 'L']
  | 0xFB03 => ['F', 'F', 'I']
  | 0xFB04 => ['F', 'F', 'L']
  | 0xFB05 => ['S', 'T']
  | 0xFB06 => ['S', 'T']
  | _ => [c.toUpper]

/-- The lower case of a character. Besides the ASCII letters, the sign for kelvin has one in ASCII. -/
def lowerOf (c : Char) : Char :=
  if c.toNat = 0x212A then 'k' else c.toLower

def upper (s : String) : String := String.ofList (s.toList.flatMap upperOf)

def lower (s : String) : String := String.ofList (s.toList.map lowerOf)

end Text

end Trischema
