import Trischema.Number.Shortest
import Trischema.Proofs.Number.Rounding

/-!
The shortest decimal of a number is in the interval of the number: one of seventeen digits always is, and the search
answers with nothing else.
-/

namespace Trischema

namespace Binary64

/-- A ratio on a decimal grid. -/
theorem onGrid_spec (num : Nat) {den : Nat} (hden : 0 < den) (power : Int) : ∃ n d, onGrid num den power = (n / d, n, d) ∧
    0 < d ∧ (n : ℚ) / d = num / den / 10 ^ power := by
  have hden' : (den : ℚ) ≠ 0 := by positivity
  have hten : (10 : ℚ) ^ power ≠ 0 := zpow_ne_zero power (by norm_num)
  rw [onGrid]
  rcases le_or_gt 0 power with hpower | hpower
  · rw [if_pos hpower,if_pos hpower]
    refine ⟨_,_,rfl,Nat.mul_pos hden (Nat.pow_pos (by decide)),?_⟩
    rw [Nat.cast_mul,natPow_toNat hpower]
    push_cast
    field_simp
  · rw [if_neg (by omega),if_neg (by omega)]
    refine ⟨_,_,rfl,hden,?_⟩
    rw [Nat.cast_mul,natPow_toNat_neg (by omega)]
    push_cast
    field_simp

theorem onGrid_zero {num den : Nat} (hden : 0 < den) (k : Int) : (onGrid num den k).1 = 0 ↔ (num / den : ℚ) < 10 ^ k := by
  obtain ⟨n,d,hgrid,hd,hratio⟩ := onGrid_spec num hden k
  have hd' : (0 : ℚ) < d := by exact_mod_cast hd
  have hten : (0 : ℚ) < 10 ^ k := zpow_pos (by norm_num) k
  rw [hgrid,Nat.div_eq_zero_iff_lt hd,← div_lt_one hten,← hratio,div_lt_one hd',Nat.cast_lt]

theorem zpow_sub_le {a b x y z w : Nat} (ha : 0 < a) (hb : 0 < b) (h : a ^ x * b ^ y ≤ b ^ w * a ^ z) :
    (a : ℚ) ^ ((x : Int) - z) ≤ (b : ℚ) ^ ((w : Int) - y) := by
  have ha' : (0 : ℚ) < a := by exact_mod_cast ha
  have hb' : (0 : ℚ) < b := by exact_mod_cast hb
  rw [zpow_sub₀ ha'.ne',zpow_sub₀ hb'.ne',zpow_natCast,zpow_natCast,zpow_natCast,zpow_natCast,
    div_le_div_iff₀ (pow_pos ha' z) (pow_pos hb' y)]
  exact_mod_cast h

/-- The estimate of a decimal magnitude by a binary one is at most one too large. -/
theorem estimate_le {t : Int} (hlow : -1100 ≤ t) (hhigh : t < 1100) :
    (10 : ℚ) ^ (t * 30103 / 100000 - 2) ≤ 2 ^ (t - 1) := by
  have hall : (List.range 2200).all (fun i =>
      10 ^ (((i : Int) - 1100) * 30103 / 100000 + 400).toNat * 2 ^ 1101 ≤ 2 ^ i * 10 ^ 402) = true := by
    decide +kernel
  have hten : ((t * 30103 / 100000 + 400).toNat : Int) - (402 : Nat) = t * 30103 / 100000 - 2 := by omega
  have htwo : ((t + 1100).toNat : Int) - (1101 : Nat) = t - 1 := by omega
  have hmem : (t + 1100).toNat ∈ List.range 2200 := List.mem_range.mpr (by omega)
  have hone := of_decide_eq_true (List.all_eq_true.mp hall _ hmem)
  rw [Int.toNat_of_nonneg (by omega),Int.add_sub_cancel] at hone
  have hpow := zpow_sub_le (by decide) (by decide) hone
  rwa [hten,htwo,Nat.cast_ofNat,Nat.cast_ofNat] at hpow

theorem decimalMagnitude_le {num den : Nat} (hnum : 0 < num) (hden : 0 < den)
    (hlow : -1100 ≤ (Nat.log2 num : Int) - Nat.log2 den) (hhigh : (Nat.log2 num : Int) - Nat.log2 den < 1100) :
    (10 : ℚ) ^ (decimalMagnitude num den - 1) ≤ num / den := by
  have hbounds := (log2_bounds hnum hden).1
  have hestimate := estimate_le hlow hhigh
  have habove {k : Int} (h : ¬(onGrid num den k).1 = 0) : (10 : ℚ) ^ k ≤ num / den :=
    not_lt.mp (mt (onGrid_zero hden k).mpr h)
  rw [decimalMagnitude]
  generalize ((Nat.log2 num : Int) - Nat.log2 den) * 30103 / 100000 = guess at *
  dsimp only
  split_ifs with hfirst hsecond hthird
  · have hsub : guess - 1 - 1 = guess - 2 := by omega
    rw [hsub]
    exact hestimate.trans hbounds.le
  · exact habove (by simpa using hfirst)
  · rw [Int.add_sub_cancel]
    exact habove (by simpa using hsecond)
  · have hsub : guess + 2 - 1 = guess + 1 := by omega
    rw [hsub]
    exact habove (by simpa using hthird)

theorem within_iff {low high den j : Nat} {closed : Bool} (hden : 0 < den) (power : Int) :
    within low high den closed j power = true ↔
      if closed then (low / den : ℚ) ≤ j * 10 ^ power ∧ (j * 10 ^ power : ℚ) ≤ high / den
      else (low / den : ℚ) < j * 10 ^ power ∧ (j * 10 ^ power : ℚ) < high / den := by
  have hden' : (0 : ℚ) < den := by exact_mod_cast hden
  obtain ⟨x,scale,hx,hscale,hpos,hratio⟩ : ∃ x scale : Nat,
      (if power ≥ 0 then j * Nat.pow 10 power.toNat * den else j * den) = x ∧
        (if power ≥ 0 then 1 else Nat.pow 10 (-power).toNat) = scale ∧ 0 < scale ∧
        (x : ℚ) = j * 10 ^ power * den * scale := by
    refine ⟨_,_,rfl,rfl,?_,?_⟩
    · split
      · exact one_pos
      · exact Nat.pow_pos (by decide)
    · split
      · rename_i hpower
        rw [Nat.cast_mul,Nat.cast_mul,natPow_toNat hpower]
        push_cast
        ring
      · rename_i hpower
        have hten : (10 : ℚ) ^ power ≠ 0 := zpow_ne_zero power (by norm_num)
        rw [natPow_toNat_neg (by omega)]
        push_cast
        field_simp
  have hscale' : (0 : ℚ) < scale := by exact_mod_cast hpos
  have hle {n : Nat} : (n * scale ≤ x ↔ (n / den : ℚ) ≤ j * 10 ^ power) ∧ (x ≤ n * scale ↔ (j * 10 ^ power : ℚ) ≤ n / den) := by
    rw [div_le_iff₀ hden',le_div_iff₀ hden',← Nat.cast_le (α := ℚ),← Nat.cast_le (α := ℚ),hratio,Nat.cast_mul,
      mul_le_mul_iff_left₀ hscale',mul_le_mul_iff_left₀ hscale']
    exact ⟨Iff.rfl,Iff.rfl⟩
  have hlt {n : Nat} : (n * scale < x ↔ (n / den : ℚ) < j * 10 ^ power) ∧ (x < n * scale ↔ (j * 10 ^ power : ℚ) < n / den) := by
    constructor
    · rw [← not_le,hle.2,not_le]
    · rw [← not_le,hle.1,not_le]
  rw [within,hx,hscale]
  cases closed with
  | true => simp only [if_true,Bool.and_eq_true,decide_eq_true_eq,hle]
  | false => simp only [Bool.false_eq_true,if_false,Bool.and_eq_true,decide_eq_true_eq,hlt]

variable {low value high den j m : Nat} {closed : Bool} {power e : Int}

/-- A point of a grid that is found is positive and within the interval. -/
theorem gridPoint?_within (h : gridPoint? low value high den closed power = some j) :
    0 < j ∧ within low high den closed j power = true := by
  have hdown {k : Nat} (hk : (within low high den closed k power && decide (k ≠ 0)) = true) :
      0 < k ∧ within low high den closed k power = true := by
    rw [Bool.and_eq_true,decide_eq_true_eq] at hk
    exact ⟨Nat.pos_of_ne_zero hk.2,hk.1⟩
  rw [gridPoint?] at h
  dsimp only at h
  split at h
  · rename_i hboth
    rw [Bool.and_eq_true] at hboth
    cases Option.some.inj h
    split_ifs
    · exact hdown hboth.1
    · exact ⟨Nat.succ_pos _,hboth.2⟩
    · exact hdown hboth.1
    · exact ⟨Nat.succ_pos _,hboth.2⟩
  · split at h
    · cases Option.some.inj h
      exact hdown ‹_›
    · split at h
      · cases Option.some.inj h
        exact ⟨Nat.succ_pos _,‹_›⟩
      · cases h

/-- A point of a grid is found where one of the neighbours of the value is within the interval. -/
theorem gridPoint?_isSome (hden : 0 < den) (hlarge : (10 ^ power : ℚ) ≤ value / den)
    (hnear : ∀ j : Nat, (j * 10 ^ power : ℚ) ≤ value / den → (value / den : ℚ) < (j + 1 : Nat) * 10 ^ power →
      within low high den closed j power = true ∨ within low high den closed (j + 1) power = true) :
    (gridPoint? low value high den closed power).isSome = true := by
  obtain ⟨n,d,hgrid,hd,hratio⟩ := onGrid_spec value hden power
  have hten : (0 : ℚ) < 10 ^ power := zpow_pos (by norm_num) power
  have hd' : (0 : ℚ) < d := by exact_mod_cast hd
  have hbelow : ((n / d : Nat) : ℚ) * 10 ^ power ≤ value / den := by
    rw [← le_div_iff₀ hten,← hratio,le_div_iff₀ hd']
    exact_mod_cast Nat.div_mul_le_self n d
  have habove : (value / den : ℚ) < (n / d + 1 : Nat) * 10 ^ power := by
    rw [← div_lt_iff₀ hten,← hratio,div_lt_iff₀ hd']
    have hlt := Nat.lt_mul_div_succ n hd
    rw [Nat.mul_comm] at hlt
    exact_mod_cast hlt
  have hone : n / d ≠ 0 := by
    intro hzero
    rw [hzero,Nat.zero_add,Nat.cast_one,one_mul] at habove
    linarith
  have hfound := hnear (n / d) hbelow habove
  rw [gridPoint?,hgrid]
  simp only [decide_eq_true hone,Bool.and_true]
  rcases hfound with hdown | hup
  · rw [hdown]
    cases within low high den closed (n / d + 1) power <;> rfl
  · rw [hup]
    cases within low high den closed (n / d) power <;> rfl

theorem dropZeros_value (fuel : Nat) (x : Decimal) (hx : 0 < x.digits) : 0 < (dropZeros fuel x).digits ∧
    ((dropZeros fuel x).digits * 10 ^ (dropZeros fuel x).power : ℚ) = x.digits * 10 ^ x.power := by
  induction fuel generalizing x with
  | zero => exact ⟨hx,rfl⟩
  | succ fuel ih =>
    rw [dropZeros]
    split
    · rename_i hzero
      obtain ⟨hpos,hvalue⟩ := ih ⟨x.digits / 10, x.power + 1⟩ (by dsimp only; omega)
      refine ⟨hpos,hvalue.trans ?_⟩
      have hdigits : x.digits = x.digits / 10 * 10 := by omega
      rw [zpow_add_one₀ (by norm_num)]
      nth_rewrite 2 [hdigits]
      push_cast
      ring
    · exact ⟨hx,rfl⟩

/-- A number of quarters of the last place of a number, as a ratio. -/
def quarters (e : Int) (k : Nat) : Nat := if e ≥ 2 then k * Nat.pow 2 (e - 2).toNat else k

def quartersDen (e : Int) : Nat := if e ≥ 2 then 1 else Nat.pow 2 (2 - e).toNat

theorem quartersDen_pos (e : Int) : 0 < quartersDen e := by
  rw [quartersDen]
  split
  · exact one_pos
  · exact Nat.two_pow_pos _

theorem quarters_ratio (e : Int) (k : Nat) : 4 * ((quarters e k : ℚ) / quartersDen e) = k * 2 ^ e := by
  have hquarter : (2 : ℚ) ^ e = 4 * 2 ^ (e - 2) := by
    rw [zpow_sub₀ two_ne_zero]
    norm_num
    ring
  rw [hquarter,quarters,quartersDen]
  rcases le_or_gt 2 e with he | he
  · rw [if_pos he,if_pos he,Nat.cast_mul,natPow_toNat (by omega),Nat.cast_one,div_one]
    push_cast
    ring
  · have hneg : 2 - e = -(e - 2) := by omega
    rw [if_neg (by omega),if_neg (by omega),hneg,natPow_toNat_neg (by omega),div_inv_eq_mul]
    push_cast
    ring

/-- The search, in quarters of the last place. -/
theorem shortest_eq (m : Nat) (e : Int) : shortest m e =
    match (List.range 17).findSome? fun n =>
      (gridPoint? (quarters e (4 * m - reach m e)) (quarters e (4 * m)) (quarters e (4 * m + 2)) (quartersDen e)
        (decide (m % 2 = 0)) (decimalMagnitude (quarters e (4 * m)) (quartersDen e) - ((n + 1 : Nat) : Int))).map
        (⟨·, decimalMagnitude (quarters e (4 * m)) (quartersDen e) - ((n + 1 : Nat) : Int)⟩) with
    | some x => dropZeros 20 x
    | none => ⟨m, e⟩ := rfl

theorem within_rounds (hm : 0 < m) : within (quarters e (4 * m - reach m e)) (quarters e (4 * m + 2)) (quartersDen e)
    (decide (m % 2 = 0)) j power = true ↔ RoundsTo (j * 10 ^ power) m e := by
  have hreach : reach m e ≤ 4 * m := by
    have hle : reach m e ≤ 2 := by exact_mod_cast reach_le m e
    omega
  have hlow := quarters_ratio e (4 * m - reach m e)
  have hhigh := quarters_ratio e (4 * m + 2)
  rw [Nat.cast_sub hreach] at hlow
  push_cast at hlow hhigh
  rw [within_iff (quartersDen_pos e)]
  constructor
  · intro h
    split at h
    · rename_i heven
      refine ⟨by linarith,by linarith,fun hodd => ?_⟩
      have heven := of_decide_eq_true heven
      omega
    · exact ⟨by linarith,by linarith,fun _ => ⟨by linarith,by linarith⟩⟩
  · rintro ⟨habove,hbelow,hapart⟩
    split
    · exact ⟨by linarith,by linarith⟩
    · rename_i hodd
      obtain ⟨habove,hbelow⟩ := hapart (by simpa using hodd)
      exact ⟨by linarith,by linarith⟩

theorem quarters_log2 (hm : 0 < m) (hfits : Fits m e) :
    -1100 ≤ (Nat.log2 (quarters e (4 * m)) : Int) - Nat.log2 (quartersDen e) ∧
      (Nat.log2 (quarters e (4 * m)) : Int) - Nat.log2 (quartersDen e) < 1100 := by
  have hmantissa : 4 * m < 2 ^ 55 := by
    have hlt := hfits.mantissa
    unfold leastNormal at hlt
    omega
  have hlowest := hfits.lowest
  have hhighest := hfits.highest
  unfold lowestExponent at hlowest
  unfold highestExponent at hhighest
  rw [quarters,quartersDen]
  split
  · have hlog : Nat.log2 (4 * m * Nat.pow 2 (e - 2).toNat) < 55 + (e - 2).toNat := by
      have hpos : 0 < 4 * m * Nat.pow 2 (e - 2).toNat := Nat.mul_pos (by omega) (Nat.two_pow_pos _)
      rw [Nat.log2_lt hpos.ne',Nat.pow_add]
      exact Nat.mul_lt_mul_of_pos_right hmantissa (Nat.two_pow_pos _)
    have hone : Nat.log2 1 = 0 := by decide
    omega
  · have hlog : Nat.log2 (4 * m) < 55 := (Nat.log2_lt (by omega)).mpr hmantissa
    have hden : Nat.log2 (Nat.pow 2 (2 - e).toNat) = (2 - e).toNat := Nat.log2_two_pow
    omega

/-- Seventeen digits are enough: one of the two neighbours of a number on that grid is in its interval. -/
theorem seventeen (hm : 0 < m) (hfits : Fits m e) :
    (gridPoint? (quarters e (4 * m - reach m e)) (quarters e (4 * m)) (quarters e (4 * m + 2)) (quartersDen e)
      (decide (m % 2 = 0)) (decimalMagnitude (quarters e (4 * m)) (quartersDen e) - 17)).isSome = true := by
  have hden := quartersDen_pos e
  have hvalue := quarters_ratio e (4 * m)
  push_cast at hvalue
  have hpow : (0 : ℚ) < 2 ^ e := zpow_pos two_pos e
  have hone : (1 : ℚ) ≤ m := by exact_mod_cast hm
  have hnum : 0 < quarters e (4 * m) := by
    rw [Nat.pos_iff_ne_zero]
    intro hzero
    rw [hzero,Nat.cast_zero,zero_div,mul_zero] at hvalue
    have hpositive : (0 : ℚ) < 4 * m * 2 ^ e := by positivity
    linarith
  obtain ⟨hlow,hhigh⟩ := quarters_log2 hm hfits
  have hmagnitude := decimalMagnitude_le hnum hden hlow hhigh
  generalize decimalMagnitude (quarters e (4 * m)) (quartersDen e) = k at *
  have hgrid : (10 : ℚ) ^ (k - 1) = 10 ^ (k - 17) * 10000000000000000 := by
    have hsplit : k - 1 = k - 17 + 16 := by omega
    rw [hsplit,zpow_add₀ (by norm_num)]
    norm_num
  have hpos : (0 : ℚ) < 10 ^ (k - 17) := zpow_pos (by norm_num) _
  rw [hgrid] at hmagnitude
  refine gridPoint?_isSome hden (by linarith) fun j hbelow habove => ?_
  rw [within_rounds hm,within_rounds hm]
  -- A step of the grid is narrower than the interval, also below a power of two, where the interval is at its narrowest.
  have hwidth : 4 * (10 : ℚ) ^ (k - 17) < (reach m e + 2) * 2 ^ e := by
    rw [reach]
    split
    · rename_i hpower
      have hpower : (m : ℚ) = 4503599627370496 := by rw [hpower.1]; norm_num [leastNormal]
      rw [hpower] at hvalue
      push_cast
      linarith
    · have hmantissa : (m : ℚ) + 1 ≤ 2 * leastNormal := by exact_mod_cast hfits.mantissa
      norm_num [leastNormal] at hmantissa ⊢
      nlinarith
  push_cast at habove
  -- The neighbour below is in the interval, or so far down that the one above is.
  by_cases hnear : 4 * (quarters e (4 * m) / quartersDen e : ℚ) - 4 * (j * 10 ^ (k - 17)) < reach m e * 2 ^ e
  · refine .inl ⟨by nlinarith,by nlinarith,fun _ => ⟨by nlinarith,by nlinarith⟩⟩
  · have hreach : (0 : ℚ) ≤ reach m e := Nat.cast_nonneg _
    have hfar : 4 * ((j + 1 : Nat) * 10 ^ (k - 17)) < (4 * m + 2 : ℚ) * 2 ^ e := by
      push_cast
      nlinarith
    have hover : (4 * m - reach m e : ℚ) * 2 ^ e < 4 * ((j + 1 : Nat) * 10 ^ (k - 17)) := by
      push_cast
      nlinarith
    exact .inr ⟨hover.le,hfar.le,fun _ => ⟨hover,hfar⟩⟩

/-- The shortest decimal of a number is positive and in the interval of the number. -/
theorem shortest_rounds (hm : 0 < m) (hfits : Fits m e) : 0 < (shortest m e).digits ∧
    RoundsTo ((shortest m e).digits * 10 ^ (shortest m e).power) m e := by
  rw [shortest_eq]
  split
  · rename_i x hfound
    obtain ⟨n,_,hpoint⟩ := List.exists_of_findSome?_eq_some hfound
    obtain ⟨j,hj,rfl⟩ := Option.map_eq_some_iff.mp hpoint
    obtain ⟨hpos,hwithin⟩ := gridPoint?_within hj
    obtain ⟨hdigits,hvalue⟩ := dropZeros_value 20 ⟨j, _⟩ hpos
    rw [hvalue]
    exact ⟨hdigits,(within_rounds hm).mp hwithin⟩
  · rename_i hnone
    -- The search cannot have failed where it ends, on the grid of seventeen digits.
    have hlast := List.findSome?_eq_none_iff.mp hnone 16 (by decide)
    have hsome := seventeen hm hfits
    rw [Option.map_eq_none_iff] at hlast
    rw [show ((16 + 1 : Nat) : Int) = 17 from rfl] at hlast
    rw [hlast] at hsome
    cases hsome

end Binary64

end Trischema
