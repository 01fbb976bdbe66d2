import Trischema.Number.Binary64

/-!
The shortest decimal that reads back as a given binary number, and its layout as text. `shortest` tries
one digit, two digits and so on up to seventeen; on each decimal grid only the two neighbours of the
value can lie in the interval that rounds to it. `NumberStyle` holds the choices of a layout.
-/

namespace Trischema

namespace Binary64

/-- A positive decimal `digits · 10^power`. -/
structure Decimal where
  digits : Nat
  power : Int
  deriving DecidableEq, Repr

/-- `num / den` in units of `10^power`, with the divisor of the fraction: the whole part of
`num / (den · 10^power)`, and the two terms of that ratio. -/
def onGrid (num den : Nat) (power : Int) : Nat × Nat × Nat :=
  let n := if power ≥ 0 then num else num * Nat.pow 10 (-power).toNat
  let d := if power ≥ 0 then den * Nat.pow 10 power.toNat else den
  (n / d, n, d)

/-- The least `k` with `num / den < 10^k`, for a positive ratio. -/
def decimalMagnitude (num den : Nat) : Int :=
  let guess : Int := (((Nat.log2 num : Int) - (Nat.log2 den : Int)) * 30103) / 100000
  let below (k : Int) : Bool := (onGrid num den k).1 = 0
  if below (guess - 1) then guess - 1
  else if below guess then guess
  else if below (guess + 1) then guess + 1
  else guess + 2

/-- Whether `j · 10^power` lies in the interval from `low / den` to `high / den`. -/
def within (low high den : Nat) (closed : Bool) (j : Nat) (power : Int) : Bool :=
  let x := if power ≥ 0 then j * Nat.pow 10 power.toNat * den else j * den
  let scale := if power ≥ 0 then 1 else Nat.pow 10 (-power).toNat
  if closed then low * scale ≤ x && x ≤ high * scale else low * scale < x && x < high * scale

/-- The point of one decimal grid that rounds to the value, the nearer one where both neighbours do. -/
def gridPoint? (low value high den : Nat) (closed : Bool) (power : Int) : Option Nat :=
  let (j, n, d) := onGrid value den power
  let down := within low high den closed j power && j ≠ 0
  let up := within low high den closed (j + 1) power
  let rest := 2 * (n % d)
  if down && up then
    some (if rest < d then j else if rest > d then j + 1 else if j % 2 = 0 then j else j + 1)
  else if down then some j
  else if up then some (j + 1)
  else none

/-- Drops the zeros at the end of a decimal; a number has at most as many as it has digits. -/
def dropZeros : Nat → Decimal → Decimal
  | 0, x => x
  | fuel + 1, x =>
    if x.digits ≠ 0 ∧ x.digits % 10 = 0 then dropZeros fuel ⟨x.digits / 10, x.power + 1⟩ else x

/-- The shortest decimal that rounds to the positive number `m · 2^e`, and of those the nearest. -/
def shortest (m : Nat) (e : Int) : Decimal :=
  let lower := if m = leastNormal ∧ e > lowestExponent then 1 else 2
  let num (k : Nat) : Nat := if e ≥ 2 then k * Nat.pow 2 (e - 2).toNat else k
  let den : Nat := if e ≥ 2 then 1 else Nat.pow 2 (2 - e).toNat
  let value := num (4 * m)
  let k := decimalMagnitude value den
  let attempt (n : Nat) : Option Decimal :=
    let power := k - n
    (gridPoint? (num (4 * m - lower)) value (num (4 * m + 2)) den (m % 2 = 0) power).map (⟨·, power⟩)
  match (List.range 17).findSome? (fun n => attempt (n + 1)) with
  | some x => dropZeros 20 x
  | none => ⟨m, e⟩

end Binary64

/-- The choices of a layout for numbers. -/
structure NumberStyle where
  /-- decimal exponents from `lowest` to `highest` are written without an exponent -/
  lowest : Int
  highest : Int
  /-- whether a whole number keeps `.0` -/
  keepsPoint : Bool
  /-- whether a mantissa of one digit gets `.0` before its exponent -/
  pointsMantissa : Bool
  /-- the least number of digits in an exponent -/
  exponentDigits : Nat
  nan : String
  infinity : String
  deriving DecidableEq, Repr

namespace NumberStyle

/-- Numbers in messages, keys and listings: positional from 10^-4 to below 10^16, two exponent digits
with a sign, and a whole number keeps its point. -/
def plain : NumberStyle := ⟨-4, 15, true, false, 2, "nan", "inf"⟩

/-- As `plain`, but a whole number has no point. -/
def bare : NumberStyle := { plain with keepsPoint := false }

/-- Numbers in a document: as `plain`, with the names of the values that have no digits. -/
def document : NumberStyle := { plain with nan := "NaN", infinity := "Infinity" }

def zeros (n : Nat) : String := String.ofList (List.replicate n '0')

/-- `digits` with the decimal point after the first `point` of them. -/
def positional (style : NumberStyle) (digits : String) (point : Int) : String :=
  let n := digits.length
  if point ≤ 0 then "0." ++ zeros (-point).toNat ++ digits
  else if point ≥ n then
    digits ++ zeros (point.toNat - n) ++ (if style.keepsPoint then ".0" else "")
  else
    String.ofList (digits.toList.take point.toNat) ++ "." ++ String.ofList (digits.toList.drop point.toNat)

/-- `d.ddd` followed by an exponent. -/
def scientific (style : NumberStyle) (digits : String) (exponent : Int) : String :=
  let tail := digits.toList.drop 1
  let fraction :=
    if tail.isEmpty then (if style.pointsMantissa then ".0" else "") else "." ++ String.ofList tail
  let mantissa := String.ofList (digits.toList.take 1) ++ fraction
  let e := toString exponent.natAbs
  mantissa ++ "e" ++ (if exponent < 0 then "-" else "+") ++ zeros (style.exponentDigits - e.length) ++ e

/-- A positive decimal as text. -/
def layOut (style : NumberStyle) (x : Binary64.Decimal) : String :=
  let digits := toString x.digits
  let exponent := (digits.length : Int) - 1 + x.power
  if style.lowest ≤ exponent ∧ exponent ≤ style.highest then style.positional digits (exponent + 1)
  else style.scientific digits exponent

/-- A number as text, with the decimal that `decimal` chooses for a positive number `m · 2^e`. -/
def renderBy (style : NumberStyle) (decimal : Nat → Int → Binary64.Decimal) : Binary64 → String
  | .nan => style.nan
  | .infinite s => (if s then "-" else "") ++ style.infinity
  | .finite s m e =>
    (if s then "-" else "") ++ (if m = 0 then style.positional "0" 1 else style.layOut (decimal m e))

/-- A number as text: the shortest digits that read back, laid out by `style`. -/
def render (style : NumberStyle) : Binary64 → String := style.renderBy Binary64.shortest

end NumberStyle

end Trischema
