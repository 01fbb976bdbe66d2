/-!
Binary floating-point numbers with 53 significant bits, as exact data: a sign, a whole mantissa and a
power of two. Rounding, comparison with whole numbers and truncation are computed on integers, so every
operation here is exact apart from the one rounding step in `Binary64.ofRatio`.
-/

namespace Trischema

/-- A number of the form ±m·2^e with m below 2^53, an infinity, or the value that is no number. -/
inductive Binary64
  | nan
  | infinite (negative : Bool)
  | finite (negative : Bool) (mantissa : Nat) (exponent : Int)
  deriving DecidableEq, Repr

namespace Binary64

/-- The exponent of the smallest positive number. -/
def lowestExponent : Int := -1074

/-- The largest exponent a finite number can have. -/
def highestExponent : Int := 971

/-- The least mantissa with all 53 bits. -/
def leastNormal : Nat := 0x10000000000000

def zero : Binary64 := finite false 0 lowestExponent

instance : Inhabited Binary64 := ⟨zero⟩

/-- `num / den · 2^(-e)`, as a quotient and a remainder over the returned divisor. -/
def scaleDown (num den : Nat) (e : Int) : Nat × Nat × Nat :=
  if e ≤ 0 then
    let n := num * Nat.pow 2 (-e).toNat
    (n / den, n % den, den)
  else
    let d := den * Nat.pow 2 e.toNat
    (num / d, num % d, d)

/-- The exponent at which the positive ratio `num / den` has a whole part of 53 bits, and never one
below the lowest. -/
def fittingExponent (num den : Nat) : Int :=
  let guess : Int := (Nat.log2 num : Int) - (Nat.log2 den : Int) - 52
  let e := if (scaleDown num den guess).1 < leastNormal then guess - 1 else guess
  max e lowestExponent

/-- The number nearest to `num / den`; of two equally near ones, the one with the even mantissa. -/
def ofRatio (negative : Bool) (num den : Nat) : Binary64 :=
  if num = 0 then finite negative 0 lowestExponent
  else
    let e := fittingExponent num den
    let (q, r, d) := scaleDown num den e
    let m := if 2 * r > d ∨ (2 * r = d ∧ q % 2 = 1) then q + 1 else q
    let (m, e) := if m = 2 * leastNormal then (leastNormal, e + 1) else (m, e)
    if e > highestExponent then infinite negative else finite negative m e

/-- The number nearest to a whole number. -/
def ofInt (n : Int) : Binary64 := ofRatio (n < 0) n.natAbs 1

/-- The number nearest to `±digits · 10^power`. Powers far outside the range are settled without
computing them. -/
def ofDecimal (negative : Bool) (digits : Nat) (power : Int) : Binary64 :=
  let magnitude : Int := (Nat.toDigits 10 digits).length + power
  if digits = 0 then finite negative 0 lowestExponent
  else if magnitude > 400 then infinite negative
  else if magnitude < -400 then finite negative 0 lowestExponent
  else if power ≥ 0 then ofRatio negative (digits * Nat.pow 10 power.toNat) 1
  else ofRatio negative digits (Nat.pow 10 (-power).toNat)

def isNan : Binary64 → Bool
  | nan => true
  | _ => false

def isFinite : Binary64 → Bool
  | finite .. => true
  | _ => false

def isZero : Binary64 → Bool
  | finite _ m _ => m = 0
  | _ => false

/-- Order of `a · 2^p` and `b · 2^q`. -/
def compareDyadic (a p b q : Int) : Ordering :=
  let low := min p q
  let scale (n : Int) : Int := Nat.pow 2 (n - low).toNat
  compare (a * scale p) (b * scale q)

/-- Order of two numbers by value; zeros of both signs are equal and `nan` is not ordered. -/
def compare? : Binary64 → Binary64 → Option Ordering
  | nan, _ | _, nan => none
  | infinite s, infinite t => some (compare (!s) (!t))
  | infinite s, _ => some (if s then .lt else .gt)
  | _, infinite t => some (if t then .gt else .lt)
  | finite s m e, finite t n f =>
    some (compareDyadic (if s then -(m : Int) else m) e (if t then -(n : Int) else n) f)

/-- Order of a number and a whole number by exact value. -/
def compareInt? (x : Binary64) (n : Int) : Option Ordering :=
  match x with
  | nan => none
  | infinite s => some (if s then .lt else .gt)
  | finite s m e => some (compareDyadic (if s then -(m : Int) else m) e n 0)

/-- The whole part of a finite number, toward zero. -/
def truncate? : Binary64 → Option Int
  | finite s m e =>
    let magnitude : Nat := if e ≥ 0 then m * Nat.pow 2 e.toNat else m / Nat.pow 2 (-e).toNat
    some (if s then -(magnitude : Int) else magnitude)
  | _ => none

/-- The whole number that a finite number is equal to, when there is one. -/
def toInt? (x : Binary64) : Option Int :=
  match x.truncate? with
  | some n => if x.compareInt? n = some .eq then some n else none
  | none => none

end Binary64

end Trischema
