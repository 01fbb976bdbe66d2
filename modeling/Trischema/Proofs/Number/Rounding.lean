import Mathlib.Algebra.Order.Field.Power
import Mathlib.Data.Nat.Log
import Mathlib.Data.Rat.Cast.Order
import Mathlib.Tactic.FieldSimp
import Mathlib.Tactic.Linarith
import Mathlib.Tactic.NormNum
import Mathlib.Tactic.Positivity
import Mathlib.Tactic.Ring
import Trischema.Number.Binary64

/-!
Rounding to binary numbers. Every number has an interval of ratios that are nearest to it, and rounding any of
them gives the number; the ends of the interval belong to it where the mantissa is even.
-/

namespace Trischema

theorem natPow_toNat {b : Nat} {e : Int} (he : 0 ≤ e) : ((Nat.pow b e.toNat : Nat) : ℚ) = (b : ℚ) ^ e := by
  have hcast : ((Nat.pow b e.toNat : Nat) : ℚ) = (b : ℚ) ^ e.toNat := Nat.cast_pow b e.toNat
  rw [hcast,← zpow_natCast,Int.toNat_of_nonneg he]

theorem natPow_toNat_neg {b : Nat} {e : Int} (he : e ≤ 0) : ((Nat.pow b (-e).toNat : Nat) : ℚ) = ((b : ℚ) ^ e)⁻¹ := by
  rw [natPow_toNat (by omega),zpow_neg]

namespace Binary64

/-- Whether a mantissa and an exponent are those of a number of 64 bits: the mantissa has 53 bits, unless the
exponent is the lowest. -/
structure Fits (m : Nat) (e : Int) : Prop where
  mantissa : m < 2 * leastNormal
  lowest : lowestExponent ≤ e
  highest : e ≤ highestExponent
  full : leastNormal ≤ m ∨ e = lowestExponent

/-- Whether a number is written with the only mantissa and exponent that it has in 64 bits. -/
def IsCanonical : Binary64 → Prop
  | finite _ m e => Fits m e
  | _ => True

/-- How far the interval of a number reaches down, in quarters of its last place: below a power of two numbers are
closer. -/
def reach (m : Nat) (e : Int) : Nat := if m = leastNormal ∧ e > lowestExponent then 1 else 2

theorem reach_le (m : Nat) (e : Int) : (reach m e : ℚ) ≤ 2 := by
  rw [reach]
  split <;> norm_num

/-- Whether a ratio is in the interval of a number. -/
structure RoundsTo (v : ℚ) (m : Nat) (e : Int) : Prop where
  above : (4 * m - reach m e) * 2 ^ e ≤ 4 * v
  below : 4 * v ≤ (4 * m + 2) * 2 ^ e
  apart : m % 2 = 1 → (4 * m - reach m e) * 2 ^ e < 4 * v ∧ 4 * v < (4 * m + 2) * 2 ^ e

theorem div_split (n : Nat) {d : Nat} (hd : 0 < d) : (n : ℚ) / d = (n / d : Nat) + (n % d : Nat) / d := by
  have hd' : (d : ℚ) ≠ 0 := by positivity
  have hdiv : ((d * (n / d) + n % d : Nat) : ℚ) = n := by rw [Nat.div_add_mod]
  rw [← hdiv]
  push_cast
  field_simp

/-- A ratio in units of a power of two: the whole part, and what is left of one unit. -/
theorem scaleDown_spec (num : Nat) {den : Nat} (hden : 0 < den) (e : Int) : ∃ q r d, scaleDown num den e = (q, r, d) ∧
    r < d ∧ (num : ℚ) / den = (q + r / d) * 2 ^ e := by
  have hden' : (den : ℚ) ≠ 0 := by positivity
  have htwo : (2 : ℚ) ^ e ≠ 0 := zpow_ne_zero e two_ne_zero
  rw [scaleDown]
  split
  · rename_i he
    refine ⟨_,_,_,rfl,Nat.mod_lt _ hden,?_⟩
    rw [← div_split _ hden,Nat.cast_mul,natPow_toNat_neg he]
    push_cast
    field_simp
  · rename_i he
    have hd : 0 < den * Nat.pow 2 e.toNat := Nat.mul_pos hden (Nat.two_pow_pos _)
    refine ⟨_,_,_,rfl,Nat.mod_lt _ hd,?_⟩
    rw [← div_split _ hd,Nat.cast_mul,natPow_toNat (by omega)]
    push_cast
    field_simp

/-- Whether an exponent gives a ratio a whole part of 53 bits, or is the lowest. -/
structure Scales (v : ℚ) (e : Int) : Prop where
  lowest : lowestExponent ≤ e
  below : v < 2 * leastNormal * 2 ^ e
  above : leastNormal * 2 ^ e ≤ v ∨ e = lowestExponent

theorem Scales.unique {v : ℚ} {e f : Int} (he : Scales v e) (hf : Scales v f) : e = f := by
  have hle {e f : Int} (he : Scales v e) (hf : Scales v f) : f ≤ e := by
    rcases hf.above with habove | hlowest
    · by_contra hlt
      have hpow : (2 : ℚ) ^ (e + 1) ≤ 2 ^ f := zpow_le_zpow_right₀ one_le_two (by omega)
      rw [zpow_add_one₀ two_ne_zero] at hpow
      have hbelow := he.below
      have hnormal : (0 : ℚ) ≤ leastNormal := Nat.cast_nonneg _
      nlinarith
    · rw [hlowest]
      exact he.lowest
  exact le_antisymm (hle hf he) (hle he hf)

/-- A ratio between the powers of two that its logarithms give. -/
theorem log2_bounds {num den : Nat} (hnum : 0 < num) (hden : 0 < den) :
    (2 : ℚ) ^ ((Nat.log2 num : Int) - Nat.log2 den - 1) < num / den ∧
      (num / den : ℚ) < 2 ^ ((Nat.log2 num : Int) - Nat.log2 den + 1) := by
  have hlow {n : Nat} (hn : 0 < n) : (2 : ℚ) ^ (Nat.log2 n : Int) ≤ n := by
    rw [zpow_natCast]
    exact_mod_cast Nat.log2_self_le hn.ne'
  have hhigh (n : Nat) : (n : ℚ) < 2 ^ ((Nat.log2 n : Int) + 1) := by
    rw [← Nat.cast_succ,zpow_natCast]
    exact_mod_cast Nat.lt_log2_self
  have hpos : (0 : ℚ) < den := by exact_mod_cast hden
  constructor
  · rw [lt_div_iff₀ hpos]
    calc (2 : ℚ) ^ ((Nat.log2 num : Int) - Nat.log2 den - 1) * den
        < 2 ^ ((Nat.log2 num : Int) - Nat.log2 den - 1) * 2 ^ ((Nat.log2 den : Int) + 1) := by
          gcongr
          exact hhigh den
      _ = 2 ^ (Nat.log2 num : Int) := by
          rw [← zpow_add₀ two_ne_zero]
          congr 1
          omega
      _ ≤ num := hlow hnum
  · rw [div_lt_iff₀ hpos]
    calc (num : ℚ) < 2 ^ ((Nat.log2 num : Int) + 1) := hhigh num
      _ = 2 ^ ((Nat.log2 num : Int) - Nat.log2 den + 1) * 2 ^ (Nat.log2 den : Int) := by
          rw [← zpow_add₀ two_ne_zero]
          congr 1
          omega
      _ ≤ 2 ^ ((Nat.log2 num : Int) - Nat.log2 den + 1) * den := by
          gcongr
          exact hlow hden

theorem fittingExponent_scales {num den : Nat} (hnum : 0 < num) (hden : 0 < den) :
    Scales (num / den) (fittingExponent num den) := by
  obtain ⟨hlow,hhigh⟩ := log2_bounds hnum hden
  generalize hguess : (Nat.log2 num : Int) - Nat.log2 den - 52 = guess at *
  have hbits : (leastNormal : ℚ) = 2 ^ (52 : Int) := by norm_num [leastNormal]
  have hlow' : (leastNormal : ℚ) * 2 ^ (guess - 1) < num / den := by
    rw [hbits,← zpow_add₀ two_ne_zero]
    convert hlow using 2
    omega
  have hhigh' : (num / den : ℚ) < 2 * leastNormal * 2 ^ guess := by
    rw [hbits,mul_assoc,← zpow_add₀ two_ne_zero,← zpow_one_add₀ two_ne_zero]
    convert hhigh using 2
    omega
  obtain ⟨e,he,hbelow,habove⟩ : ∃ e, (if (scaleDown num den guess).1 < leastNormal then guess - 1 else guess) = e ∧
      (num / den : ℚ) < 2 * leastNormal * 2 ^ e ∧ (leastNormal * 2 ^ e : ℚ) ≤ num / den := by
    obtain ⟨q,r,d,hscale,hr,hratio⟩ := scaleDown_spec num hden guess
    have hpow : (0 : ℚ) < 2 ^ guess := zpow_pos two_pos guess
    have hd : (0 : ℚ) < d := by exact_mod_cast (show 0 < d by omega)
    have hfraction : (0 : ℚ) ≤ r / d ∧ (r / d : ℚ) < 1 := by
      refine ⟨by positivity,?_⟩
      rw [div_lt_one hd]
      exact_mod_cast hr
    refine ⟨_,rfl,?_⟩
    rw [hscale]
    split
    · rename_i hq
      have hq : (q : ℚ) + 1 ≤ leastNormal := by exact_mod_cast hq
      refine ⟨?_,hlow'.le⟩
      rw [hratio,zpow_sub_one₀ two_ne_zero]
      nlinarith
    · rename_i hq
      have hq : (leastNormal : ℚ) ≤ q := by exact_mod_cast Nat.le_of_not_lt hq
      refine ⟨hhigh',?_⟩
      rw [hratio]
      nlinarith
  rw [fittingExponent,hguess,he]
  rcases le_total lowestExponent e with hle | hle
  · rw [max_eq_left hle]
    exact ⟨hle,hbelow,.inl habove⟩
  · rw [max_eq_right hle]
    refine ⟨le_rfl,hbelow.trans_le ?_,.inr rfl⟩
    gcongr
    exact one_le_two

/-- A ratio in units, and a whole number that is nearest to it: the even one of two that are equally near. -/
theorem round_units {q r d m : Nat} (hr : r < d) (hlow : (2 * m - 1 : ℚ) ≤ 2 * (q + r / d))
    (hhigh : (2 * (q + r / d) : ℚ) ≤ 2 * m + 1)
    (hodd : m % 2 = 1 → (2 * m - 1 : ℚ) < 2 * (q + r / d) ∧ (2 * (q + r / d) : ℚ) < 2 * m + 1) :
    (if 2 * r > d ∨ (2 * r = d ∧ q % 2 = 1) then q + 1 else q) = m := by
  have hd : (0 : ℚ) < d := by exact_mod_cast (show 0 < d by omega)
  have hscale : (d : ℚ) * (2 * (q + r / d)) = 2 * q * d + 2 * r := by field_simp
  have hcast {a b : Nat} : ((a : ℚ) ≤ b ↔ a ≤ b) ∧ ((a : ℚ) < b ↔ a < b) := ⟨Nat.cast_le,Nat.cast_lt⟩
  have hlow : 2 * m * d ≤ 2 * q * d + 2 * r + d := by
    rw [← hcast.1]
    push_cast
    nlinarith
  have hhigh : 2 * q * d + 2 * r ≤ 2 * m * d + d := by
    rw [← hcast.1]
    push_cast
    nlinarith
  have hodd : m % 2 = 1 → 2 * m * d < 2 * q * d + 2 * r + d ∧ 2 * q * d + 2 * r < 2 * m * d + d := by
    intro hm
    obtain ⟨hlow,hhigh⟩ := hodd hm
    rw [← hcast.2,← hcast.2]
    push_cast
    exact ⟨by nlinarith,by nlinarith⟩
  have hnear : m = q ∨ m = q + 1 := by
    have hle : q ≤ m := by
      by_contra hlt
      have hstep := Nat.mul_le_mul_right d (show 2 * m + 2 ≤ 2 * q by omega)
      nlinarith
    have hge : m ≤ q + 1 := by
      by_contra hlt
      have hstep := Nat.mul_le_mul_right d (show 2 * q + 4 ≤ 2 * m by omega)
      nlinarith
    omega
  rcases hnear with rfl | rfl
  · rw [if_neg]
    omega
  · have hexpand : 2 * (q + 1) * d = 2 * q * d + 2 * d := by ring
    rw [if_pos]
    omega

/-- What a ratio rounds to, given its units and the number of them that is nearest. -/
theorem ofRatio_units {num den q r d k : Nat} {f : Int} (negative : Bool) (hnum : 0 < num)
    (hexponent : fittingExponent num den = f) (hscale : scaleDown num den f = (q, r, d))
    (hround : (if 2 * r > d ∨ (2 * r = d ∧ q % 2 = 1) then q + 1 else q) = k) :
    ofRatio negative num den =
      if k = 2 * leastNormal then
        if f + 1 > highestExponent then infinite negative else finite negative leastNormal (f + 1)
      else if f > highestExponent then infinite negative else finite negative k f := by
  simp only [ofRatio,if_neg hnum.ne',hexponent,hscale,hround]
  split_ifs <;> simp_all

/-- Every ratio in the interval of a number rounds to the number. -/
theorem ofRatio_eq {num den m : Nat} {e : Int} (negative : Bool) (hnum : 0 < num) (hden : 0 < den) (hfits : Fits m e)
    (hrounds : RoundsTo (num / den) m e) : ofRatio negative num den = finite negative m e := by
  have hpow : (0 : ℚ) < 2 ^ e := zpow_pos two_pos e
  have hscales := fittingExponent_scales hnum hden
  have hhighest := hfits.highest
  obtain ⟨habove,hbelow,hapart⟩ := hrounds
  have hreach := reach_le m e
  have hvalue : (num / den : ℚ) < 2 * leastNormal * 2 ^ e := by
    rcases Nat.mod_two_eq_zero_or_one m with heven | hodd
    · have hmantissa : (m : ℚ) + 2 ≤ 2 * leastNormal := by
        exact_mod_cast (show m + 2 ≤ 2 * leastNormal by have := hfits.mantissa; unfold leastNormal at *; omega)
      nlinarith
    · have hmantissa : (m : ℚ) + 1 ≤ 2 * leastNormal := by exact_mod_cast hfits.mantissa
      nlinarith [(hapart hodd).2]
  by_cases hfull : (leastNormal * 2 ^ e : ℚ) ≤ num / den ∨ e = lowestExponent
  · have hexponent : fittingExponent num den = e := hscales.unique ⟨hfits.lowest,hvalue,hfull⟩
    obtain ⟨q,r,d,hscale,hr,hratio⟩ := scaleDown_spec num hden e
    rw [hratio] at habove hbelow hapart
    have hround : (if 2 * r > d ∨ (2 * r = d ∧ q % 2 = 1) then q + 1 else q) = m := by
      refine round_units hr (by nlinarith) (by nlinarith) fun hodd => ?_
      obtain ⟨hlow,hhigh⟩ := hapart hodd
      exact ⟨by nlinarith,by nlinarith⟩
    rw [ofRatio_units negative hnum hexponent hscale hround,if_neg hfits.mantissa.ne,if_neg (by omega)]
  · -- the ratio is less than a power of two, and nearer to it than to the number before it
    obtain ⟨hless,hlowest⟩ := not_or.mp hfull
    have hless := not_le.mp hless
    have hnormal := hfits.full.resolve_right hlowest
    have hpower : m = leastNormal := by
      by_contra hne
      have hlarger : (leastNormal : ℚ) + 1 ≤ m := by exact_mod_cast (show leastNormal + 1 ≤ m by omega)
      nlinarith
    have hquarter : reach m e = 1 := if_pos ⟨hpower,by have := hfits.lowest; omega⟩
    rw [hquarter,hpower] at habove
    have hhalf : (2 : ℚ) ^ e = 2 * 2 ^ (e - 1) := by
      rw [zpow_sub_one₀ two_ne_zero]
      ring
    have hpow' : (0 : ℚ) < 2 ^ (e - 1) := zpow_pos two_pos _
    rw [hhalf] at hless habove
    have hbits : (1 : ℚ) ≤ leastNormal := by norm_num [leastNormal]
    push_cast at habove
    have hexponent : fittingExponent num den = e - 1 :=
      hscales.unique ⟨by have := hfits.lowest; omega,by linarith,.inl (by nlinarith)⟩
    obtain ⟨q,r,d,hscale,hr,hratio⟩ := scaleDown_spec num hden (e - 1)
    rw [hratio] at habove hless
    have hround : (if 2 * r > d ∨ (2 * r = d ∧ q % 2 = 1) then q + 1 else q) = 2 * leastNormal := by
      refine round_units hr ?_ ?_ fun hodd => absurd hodd (by decide)
      · push_cast
        nlinarith
      · push_cast
        nlinarith
    rw [ofRatio_units negative hnum hexponent hscale hround,if_pos rfl,Int.sub_add_cancel,if_neg (by omega),hpower]

theorem toDigits_bounds {n : Nat} (hn : 0 < n) :
    10 ^ ((Nat.toDigits 10 n).length - 1) ≤ n ∧ n < 10 ^ (Nat.toDigits 10 n).length := by
  have hpos : 0 < (Nat.toDigits 10 n).length := Nat.length_toDigits_pos
  refine ⟨?_,(Nat.length_toDigits_le_iff (by decide) hpos).mp le_rfl⟩
  rcases Nat.eq_zero_or_pos ((Nat.toDigits 10 n).length - 1) with hone | hmore
  · rw [hone]
    exact hn
  · by_contra hless
    have hle := (Nat.length_toDigits_le_iff (by decide) hmore).mpr (Nat.lt_of_not_le hless)
    omega

theorem two_zpow_le (k : Nat) : (2 : ℚ) ^ (3 * (k : Int)) ≤ 10 ^ (k : Int) := by
  rw [zpow_mul,zpow_natCast,zpow_natCast]
  exact pow_le_pow_left₀ (by norm_num) (by norm_num) k

/-- A decimal in the interval of a number is neither too large nor too small to be computed. -/
theorem magnitude_bounds {digits m : Nat} {power e : Int} (hdigits : 0 < digits) (hm : 0 < m) (hfits : Fits m e)
    (hrounds : RoundsTo (digits * 10 ^ power) m e) : ((Nat.toDigits 10 digits).length : Int) + power ≤ 400 ∧
      -400 ≤ ((Nat.toDigits 10 digits).length : Int) + power := by
  obtain ⟨hleast,hmost⟩ := toDigits_bounds hdigits
  have hlength : 0 < (Nat.toDigits 10 digits).length := Nat.length_toDigits_pos
  generalize (Nat.toDigits 10 digits).length = l at *
  have hleast : (10 : ℚ) ^ ((l : Int) + power - 1) ≤ digits * 10 ^ power := by
    have hsplit : (l : Int) + power - 1 = ((l - 1 : Nat) : Int) + power := by omega
    rw [hsplit,zpow_add₀ (by norm_num),zpow_natCast]
    gcongr
    exact_mod_cast hleast
  have hmost : (digits : ℚ) * 10 ^ power < 10 ^ ((l : Int) + power) := by
    rw [zpow_add₀ (by norm_num),zpow_natCast]
    gcongr
    exact_mod_cast hmost
  have hvalue : (0 : ℚ) < digits * 10 ^ power := by positivity
  have hpow : (0 : ℚ) < 2 ^ e := zpow_pos two_pos e
  constructor
  · by_contra hlarge
    have hmantissa : (m : ℚ) + 1 ≤ 2 * leastNormal := by exact_mod_cast hfits.mantissa
    have hbits : (8 * leastNormal : ℚ) = 2 ^ (55 : Int) := by norm_num [leastNormal]
    have hhighest := hfits.highest
    have hlimit : 4 * (digits * 10 ^ power) ≤ (digits * 10 ^ power : ℚ) := by
      calc 4 * (digits * 10 ^ power : ℚ)
          ≤ (4 * m + 2) * 2 ^ e := hrounds.below
        _ ≤ (8 * leastNormal : ℚ) * 2 ^ e := by
            gcongr
            linarith
        _ = 2 ^ (55 + e) := by rw [hbits,zpow_add₀ two_ne_zero]
        _ ≤ 2 ^ (3 * ((400 : Nat) : Int)) := zpow_le_zpow_right₀ one_le_two (by unfold highestExponent at *; omega)
        _ ≤ 10 ^ ((400 : Nat) : Int) := two_zpow_le 400
        _ ≤ 10 ^ ((l : Int) + power - 1) := zpow_le_zpow_right₀ (by norm_num) (by omega)
        _ ≤ digits * 10 ^ power := hleast
    linarith
  · by_contra hsmall
    have hone : (1 : ℚ) ≤ m := by exact_mod_cast hm
    have hreach := reach_le m e
    have hlowest := hfits.lowest
    have hlimit : (digits * 10 ^ power : ℚ) < 2 ^ (e - 1) := by
      calc (digits * 10 ^ power : ℚ)
          < 10 ^ ((l : Int) + power) := hmost
        _ ≤ 10 ^ (-((400 : Nat) : Int)) := zpow_le_zpow_right₀ (by norm_num) (by omega)
        _ = (10 ^ ((400 : Nat) : Int))⁻¹ := zpow_neg _ _
        _ ≤ (2 ^ (3 * ((400 : Nat) : Int)))⁻¹ := inv_anti₀ (zpow_pos two_pos _) (two_zpow_le 400)
        _ = 2 ^ (-(3 * ((400 : Nat) : Int))) := (zpow_neg _ _).symm
        _ ≤ 2 ^ (e - 1) := zpow_le_zpow_right₀ one_le_two (by unfold lowestExponent at *; omega)
    rw [zpow_sub_one₀ two_ne_zero] at hlimit
    have habove := hrounds.above
    nlinarith

/-- Every decimal in the interval of a number is read as the number. -/
theorem ofDecimal_eq {digits m : Nat} {power e : Int} (negative : Bool) (hdigits : 0 < digits) (hm : 0 < m)
    (hfits : Fits m e) (hrounds : RoundsTo (digits * 10 ^ power) m e) :
    ofDecimal negative digits power = finite negative m e := by
  obtain ⟨hlarge,hsmall⟩ := magnitude_bounds hdigits hm hfits hrounds
  rw [ofDecimal,if_neg hdigits.ne',if_neg (by omega),if_neg (by omega)]
  split
  · rename_i hpower
    refine ofRatio_eq negative (Nat.mul_pos hdigits (Nat.pow_pos (by decide))) one_pos hfits ?_
    rw [Nat.cast_mul,natPow_toNat hpower,Nat.cast_one,div_one]
    exact hrounds
  · rename_i hpower
    refine ofRatio_eq negative hdigits (Nat.pow_pos (by decide)) hfits ?_
    rw [natPow_toNat_neg (by omega),div_inv_eq_mul]
    exact hrounds

end Binary64

end Trischema
