import Trischema.Number.Shortest

/-!
Numbers rounded to a fixed count of significant digits. A tie goes away from zero, and zeros at the end
are dropped.
-/

namespace Trischema

namespace Binary64

/-- The positive number `m · 2^e` with the given count of significant digits. -/
def rounded (count m : Nat) (e : Int) : Decimal :=
  let num := if e ≥ 0 then m * Nat.pow 2 e.toNat else m
  let den := if e ≥ 0 then 1 else Nat.pow 2 (-e).toNat
  let power := decimalMagnitude num den - count
  let (_, n, d) := onGrid num den power
  dropZeros (count + 1) ⟨(2 * n + d) / (2 * d), power⟩

end Binary64

end Trischema
