import Mathlib.Order.WithBot
import Trischema.Proofs.Number.Rounding
import Trischema.Value.Equality

/-!
Comparison of numbers. Numbers are compared by their sizes, which are fractions or lie beyond all of them; whole numbers
are compared as if they were written without rounding.
-/

namespace Trischema

namespace Binary64

/-- Numbers are compared as the fractions that they are. -/
theorem compareDyadic_eq_compare (a p b q : Int) : compareDyadic a p b q = compare (a * 2 ^ p : ℚ) (b * 2 ^ q) := by
  have hscale {n : Int} (h : min p q ≤ n) :
      (((Nat.pow 2 (n - min p q).toNat : Nat) : Int) : ℚ) * 2 ^ min p q = 2 ^ n := by
    rw [Int.cast_natCast,natPow_toNat (by omega),Nat.cast_ofNat,← zpow_add₀ two_ne_zero,Int.sub_add_cancel]
  have hlow : (0 : ℚ) < 2 ^ min p q := zpow_pos two_pos _
  have hgrows : StrictMono fun n : Int => (n : ℚ) * 2 ^ min p q :=
    fun _ _ hlt => mul_lt_mul_of_pos_right (Int.cast_lt.mpr hlt) hlow
  have hmap := hgrows.cmp_map_eq (a * Nat.pow 2 (p - min p q).toNat) (b * Nat.pow 2 (q - min p q).toNat)
  rw [cmp_eq_compare,cmp_eq_compare] at hmap
  simp only [Int.cast_mul,mul_assoc,hscale (min_le_left p q),hscale (min_le_right p q)] at hmap
  rw [hmap]
  rfl

/-- A signed mantissa. -/
def signed (s : Bool) (m : Nat) : Int := if s then -(m : Int) else m

/-- The size of what is a number. -/
def size : Binary64 → WithBot (WithTop ℚ)
  | infinite true | nan => ⊥
  | infinite false => ⊤
  | finite s m e => ((signed s m * 2 ^ e : ℚ) : WithTop ℚ)

variable {x y : Binary64}

theorem compare?_nan (x : Binary64) : x.compare? nan = none := by
  cases x <;> rfl

/-- Numbers are compared by their sizes. -/
theorem compare?_eq (hx : x ≠ nan) (hy : y ≠ nan) : x.compare? y = some (compare x.size y.size) := by
  cases x with
  | nan => exact absurd rfl hx
  | infinite s =>
    cases y with
    | nan => exact absurd rfl hy
    | infinite t => cases s <;> cases t <;> decide
    | finite t n f =>
      cases s with
      | true => exact congrArg some (compare_lt_iff_lt.mpr (WithBot.bot_lt_coe _)).symm
      | false => exact congrArg some (compare_gt_iff_gt.mpr (WithBot.coe_lt_coe.mpr (WithTop.coe_lt_top _))).symm
  | finite s m e =>
    cases y with
    | nan => exact absurd rfl hy
    | infinite t =>
      cases t with
      | true => exact congrArg some (compare_gt_iff_gt.mpr (WithBot.bot_lt_coe _)).symm
      | false => exact congrArg some (compare_lt_iff_lt.mpr (WithBot.coe_lt_coe.mpr (WithTop.coe_lt_top _))).symm
    | finite t n f =>
      change some (compareDyadic (signed s m) e (signed t n) f) = _
      rw [compareDyadic_eq_compare,size,size,← cmp_eq_compare,← cmp_eq_compare,WithBot.coe_strictMono.cmp_map_eq,
        WithTop.coe_strictMono.cmp_map_eq]

theorem ne_nan_of_compare? {o : Ordering} (h : x.compare? y = some o) : x ≠ nan ∧ y ≠ nan := by
  constructor
  · rintro rfl
    cases h
  · rintro rfl
    rw [compare?_nan] at h
    cases h

theorem compare?_swap (x y : Binary64) : (x.compare? y).map Ordering.swap = y.compare? x := by
  by_cases hx : x = nan
  · rw [hx,compare?_nan]
    rfl
  by_cases hy : y = nan
  · rw [hy,compare?_nan]
    rfl
  rw [compare?_eq hx hy,compare?_eq hy hx]
  exact congrArg some Std.OrientedCmp.eq_swap.symm

theorem compare?_comm (x y : Binary64) : x.compare? y = some .eq ↔ y.compare? x = some .eq := by
  rw [← compare?_swap x y,Option.map_eq_some_iff]
  simp

theorem compare?_self (h : x.isNan = false) : x.compare? x = some .eq := by
  have hx : x ≠ nan := fun heq => by rw [heq] at h; cases h
  rw [compare?_eq hx hx,compare_eq_iff_eq.mpr rfl]

/-- Numbers that are equal are equal to the same numbers. -/
theorem compare?_congr (h : x.compare? y = some .eq) (z : Binary64) : x.compare? z = y.compare? z := by
  obtain ⟨hx,hy⟩ := ne_nan_of_compare? h
  rw [compare?_eq hx hy,Option.some.injEq,compare_eq_iff_eq] at h
  by_cases hz : z = nan
  · rw [hz,compare?_nan,compare?_nan]
  · rw [compare?_eq hx hz,compare?_eq hy hz,h]

/-- A whole number without rounding. -/
def whole (n : Int) : Binary64 := finite (n < 0) n.natAbs 0

theorem signed_whole (n : Int) : signed (n < 0) n.natAbs = n := by
  simp only [signed,decide_eq_true_eq]
  split <;> omega

theorem size_whole (n : Int) : (whole n).size = ((n : ℚ) : WithTop ℚ) := by
  rw [whole,size,signed_whole,zpow_zero,mul_one]

theorem compare?_whole (m n : Int) : (whole m).compare? (whole n) = some (compare m n) := by
  have hnumber (k : Int) : whole k ≠ nan := Binary64.noConfusion
  rw [compare?_eq (hnumber m) (hnumber n),size_whole,size_whole,← cmp_eq_compare,WithBot.coe_strictMono.cmp_map_eq,
    WithTop.coe_strictMono.cmp_map_eq,Int.cast_strictMono.cmp_map_eq,cmp_eq_compare]

theorem compareInt?_eq (x : Binary64) (n : Int) : x.compareInt? n = x.compare? (whole n) := by
  cases x with
  | nan | infinite => rfl
  | finite s m e =>
    change some (compareDyadic (signed s m) e n 0) = some (compareDyadic (signed s m) e (signed (n < 0) n.natAbs) 0)
    rw [signed_whole]

theorem compareInt?_finite {s : Bool} {m : Nat} {e n : Int} :
    (finite s m e).compareInt? n = some .eq ↔ (signed s m * 2 ^ e : ℚ) = n := by
  rw [compareInt?_eq,compare?_eq Binary64.noConfusion Binary64.noConfusion,size_whole,Option.some_inj,compare_eq_iff_eq,
    size,WithBot.coe_inj,WithTop.coe_inj]

/-- A number counts as whole exactly when it is equal to a whole number, and then as that one. -/
theorem toInt?_eq_some {x : Binary64} {n : Int} : x.toInt? = some n ↔ x.compareInt? n = some .eq := by
  constructor
  · intro h
    unfold toInt? at h
    cases ht : x.truncate? with
    | none => rw [ht] at h; cases h
    | some k =>
      rw [ht] at h
      dsimp only at h
      split at h
      · cases h
        assumption
      · cases h
  · intro h
    cases x with
    | nan => cases h
    | infinite s => cases s <;> cases h
    | finite s m e =>
      have hvalue := compareInt?_finite.mp h
      have hsize : (m * 2 ^ e : ℚ) = n.natAbs := by
        have habs := congrArg abs hvalue
        rw [abs_mul,abs_of_pos (zpow_pos two_pos e : (0 : ℚ) < 2 ^ e)] at habs
        rw [Nat.cast_natAbs,Int.cast_abs,← habs]
        cases s <;> simp [signed]
      have hmagnitude : (if e ≥ 0 then m * Nat.pow 2 e.toNat else m / Nat.pow 2 (-e).toNat) = n.natAbs := by
        split
        · rename_i he
          rw [← Nat.cast_inj (R := ℚ),Nat.cast_mul,natPow_toNat he,← hsize,Nat.cast_ofNat]
        · rename_i he
          have hpow := natPow_toNat_neg (b := 2) (e := e) (by omega)
          have hpos : 0 < Nat.pow 2 (-e).toNat := Nat.pow_pos two_pos
          refine Nat.div_eq_of_eq_mul_left hpos ?_
          rw [← Nat.cast_inj (R := ℚ),Nat.cast_mul,hpow,← hsize,Nat.cast_ofNat]
          field_simp
      have hsigned : (if s then -(n.natAbs : Int) else n.natAbs) = n := by
        rw [← Int.cast_inj (α := ℚ),← hvalue]
        cases s
        · exact (Int.cast_natCast _).trans hsize.symm
        · rw [if_pos rfl,Int.cast_neg,Int.cast_natCast,← hsize,signed,if_pos rfl,Int.cast_neg,Int.cast_natCast,neg_mul]
      have htruncate : (finite s m e).truncate? = some n :=
        congrArg some (by rw [hmagnitude]; exact hsigned)
      unfold toInt?
      rw [htruncate]
      exact if_pos h

end Binary64

namespace Number

/-- A real number without rounding. -/
def unrounded : Number → Binary64
  | int n => .whole n
  | float x => x
  | complex .. => .nan

theorem compare?_eq_unrounded (m n : Number) : m.compare? n = m.unrounded.compare? n.unrounded := by
  cases m with
  | int a =>
    cases n with
    | int b => exact (Binary64.compare?_whole a b).symm
    | float y =>
      change (y.compareInt? a).map Ordering.swap = _
      rw [Binary64.compareInt?_eq,Binary64.compare?_swap]
      rfl
    | complex => rfl
  | float x =>
    cases n with
    | int b => exact Binary64.compareInt?_eq x b
    | float y => rfl
    | complex => exact (Binary64.compare?_nan x).symm
  | complex => cases n <;> rfl

theorem compare?_comm (m n : Number) : m.compare? n = some .eq ↔ n.compare? m = some .eq := by
  rw [compare?_eq_unrounded,compare?_eq_unrounded]
  exact Binary64.compare?_comm _ _

/-- Numbers that are equal are equal to the same numbers. -/
theorem compare?_congr {m n : Number} (h : m.compare? n = some .eq) (l : Number) : m.compare? l = n.compare? l := by
  rw [compare?_eq_unrounded] at h
  rw [compare?_eq_unrounded,compare?_eq_unrounded,Binary64.compare?_congr h]

end Number

end Trischema
