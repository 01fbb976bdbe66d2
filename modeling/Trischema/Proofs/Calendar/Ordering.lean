import Mathlib.Data.String.Basic
import Mathlib.Tactic.Linarith
import Trischema.Proofs.Calendar.RoundTrip

/-!
Dates and moments in the order of their texts. Numbers of one width are ordered as their digits are, so that the
interchange form of days that exist is in the order of the days. For moments it is in the order of the clock on the
wall, which is that of the instants where distances from universal time are the same.
-/

namespace Trischema

namespace Calendar

/-- Parts of one length settle the order of two texts unless they are the same. -/
theorem append_lt_append_iff {xs ys as bs : List Char} (h : xs.length = ys.length) :
    xs ++ as < ys ++ bs ↔ xs < ys ∨ (xs = ys ∧ as < bs) := by
  induction xs generalizing ys with
  | nil =>
    have hys : ys = [] := List.eq_nil_of_length_eq_zero (by simpa using h.symm)
    simp [hys]
  | cons x xs ih =>
    cases ys with
    | nil => simp at h
    | cons y ys =>
      have hrest := @ih ys (by simpa using h)
      simp only [List.cons_append,List.cons_lt_cons_iff,hrest,List.cons.injEq]
      constructor
      · rintro (hlt | ⟨rfl,hlt | ⟨rfl,hlt⟩⟩)
        · exact .inl (.inl hlt)
        · exact .inl (.inr ⟨rfl,hlt⟩)
        · exact .inr ⟨⟨rfl,rfl⟩,hlt⟩
      · rintro ((hlt | ⟨rfl,hlt⟩) | ⟨⟨rfl,rfl⟩,hlt⟩)
        · exact .inl hlt
        · exact .inr ⟨rfl,.inl hlt⟩
        · exact .inr ⟨rfl,.inr ⟨rfl,hlt⟩⟩

theorem digitsValue_cons (c : Char) (cs : List Char) :
    digitsValue (c :: cs) = 10 ^ cs.length * (c.toNat - '0'.toNat) + digitsValue cs := by
  change Nat.ofDigitChars 10 (c :: cs) 0 = _ + Nat.ofDigitChars 10 cs 0
  rw [Nat.ofDigitChars_cons,Nat.ofDigitChars_eq_ofDigitChars_zero,Nat.mul_zero,Nat.zero_add]

theorem digit_bounds {c : Char} (h : c.isDigit = true) : '0'.toNat ≤ c.toNat ∧ c.toNat ≤ '0'.toNat + 9 := by
  rw [Char.isDigit,Bool.and_eq_true,decide_eq_true_eq,decide_eq_true_eq] at h
  exact ⟨UInt32.le_iff_toNat_le.mp h.1,UInt32.le_iff_toNat_le.mp h.2⟩

theorem digitsValue_lt {cs : List Char} (h : ∀ c ∈ cs, c.isDigit = true) : digitsValue cs < 10 ^ cs.length := by
  induction cs with
  | nil => exact Nat.one_pos
  | cons c cs ih =>
    obtain ⟨hc,hcs⟩ := List.forall_mem_cons.mp h
    have hdigit : c.toNat - '0'.toNat ≤ 9 := by have := digit_bounds hc; omega
    have hrest := ih hcs
    have hscaled := Nat.mul_le_mul_left (10 ^ cs.length) hdigit
    rw [digitsValue_cons,List.length_cons,Nat.pow_succ]
    omega

theorem char_lt_iff (c d : Char) : c < d ↔ c.toNat < d.toNat := Iff.rfl

/-- Digits of one length are in the order of their numbers. -/
theorem digits_lt_iff {xs ys : List Char} (hxs : ∀ c ∈ xs, c.isDigit = true) (hys : ∀ c ∈ ys, c.isDigit = true)
    (h : xs.length = ys.length) : xs < ys ↔ digitsValue xs < digitsValue ys := by
  induction xs generalizing ys with
  | nil =>
    have hys : ys = [] := List.eq_nil_of_length_eq_zero (by simpa using h.symm)
    simp [hys]
  | cons x xs ih =>
    cases ys with
    | nil => simp at h
    | cons y ys =>
      obtain ⟨hx,hxs⟩ := List.forall_mem_cons.mp hxs
      obtain ⟨hy,hys⟩ := List.forall_mem_cons.mp hys
      have hlength : xs.length = ys.length := by simpa using h
      have hrest := ih hxs hys hlength
      have hxb := digit_bounds hx
      have hyb := digit_bounds hy
      have hvx := digitsValue_lt hxs
      have hvy := digitsValue_lt hys
      rw [List.cons_lt_cons_iff,digitsValue_cons,digitsValue_cons,hrest,char_lt_iff,← hlength]
      rw [← hlength] at hvy
      generalize 10 ^ xs.length = scale at hvx hvy ⊢
      have hapart {m n v w : Nat} (hmn : m < n) (hv : v < scale) : scale * m + v < scale * n + w := by
        have := Nat.mul_le_mul_left scale (Nat.succ_le_of_lt hmn)
        rw [Nat.mul_succ] at this
        omega
      rcases Nat.lt_trichotomy x.toNat y.toNat with hlt | heq | hgt
      · have hdigits : x.toNat - '0'.toNat < y.toNat - '0'.toNat := by omega
        exact iff_of_true (.inl hlt) (hapart hdigits hvx)
      · have hsame : x = y := Char.toNat_inj.mp heq
        subst hsame
        simp
      · have hdigits : y.toNat - '0'.toNat < x.toNat - '0'.toNat := by omega
        have hdown : ¬scale * (x.toNat - '0'.toNat) + digitsValue xs < scale * (y.toNat - '0'.toNat) + digitsValue ys :=
          Nat.lt_asymm (hapart hdigits hvy)
        refine iff_of_false ?_ hdown
        rintro (hlt | ⟨rfl,_⟩) <;> omega

/-- Padded numbers are in the order of the numbers. -/
theorem padded_lt_iff {w m n : Nat} (hw : 0 < w) (hm : m < 10 ^ w) (hn : n < 10 ^ w) :
    (padded w m).toList < (padded w n).toList ↔ m < n := by
  have hlength : (padded w m).toList.length = (padded w n).toList.length := by
    rw [padded_length hw hm,padded_length hw hn]
  rw [digits_lt_iff (fun _ => padded_digits) (fun _ => padded_digits) hlength,padded_value,padded_value]

theorem padded_inj {w m n : Nat} : (padded w m).toList = (padded w n).toList ↔ m = n := by
  constructor
  · intro h
    rw [← padded_value w m,h,padded_value]
  · intro h
    rw [h]

/-- Texts that start with padded numbers are ordered by these, and then by what follows. -/
theorem padded_append_lt {w m n : Nat} (hw : 0 < w) (hm : m < 10 ^ w) (hn : n < 10 ^ w) (as bs : List Char) :
    (padded w m).toList ++ as < (padded w n).toList ++ bs ↔ m < n ∨ (m = n ∧ as < bs) := by
  have hlength : (padded w m).toList.length = (padded w n).toList.length := by
    rw [padded_length hw hm,padded_length hw hn]
  rw [append_lt_append_iff hlength,padded_lt_iff hw hm hn,padded_inj]

end Calendar

namespace Date

open Calendar

theorem daysBeforeMonth_succ (year : Nat) {month : Nat} (h : 1 ≤ month) :
    daysBeforeMonth year (month + 1) = daysBeforeMonth year month + daysInMonth year month := by
  obtain ⟨k,rfl⟩ := Nat.exists_eq_add_of_le' h
  simp [daysBeforeMonth,List.range_succ]

/-- A month ends before any later one begins. -/
theorem daysBeforeMonth_lt (year : Nat) {month later : Nat} (h : 1 ≤ month) (hlt : month < later) :
    daysBeforeMonth year month + daysInMonth year month ≤ daysBeforeMonth year later := by
  induction later, hlt using Nat.le_induction with
  | base => rw [Nat.succ_eq_add_one,daysBeforeMonth_succ year h]
  | succ later hle ih =>
    rw [daysBeforeMonth_succ year (by omega)]
    omega

theorem daysBeforeMonth_end (year : Nat) : daysBeforeMonth year 13 = if isLeap year then 366 else 365 := by
  cases h : isLeap year <;> simp [daysBeforeMonth,List.range_succ,daysInMonth,h]

theorem succ_div_eq (n k : Nat) : (k + 1) / n = k / n + if (k + 1) % n = 0 then 1 else 0 := by
  simp only [Nat.succ_div,Nat.dvd_iff_mod_eq_zero]

theorem daysBeforeYear_succ {year : Nat} (h : 1 ≤ year) :
    daysBeforeYear (year + 1) = daysBeforeYear year + if isLeap year then 366 else 365 := by
  obtain ⟨k,rfl⟩ := Nat.exists_eq_add_of_le' h
  have hleap : isLeap (k + 1) = true ↔ (k + 1) % 4 = 0 ∧ ((k + 1) % 100 ≠ 0 ∨ (k + 1) % 400 = 0) := by simp [isLeap]
  have h100 : (k + 1) % 100 = 0 → (k + 1) % 4 = 0 := by omega
  have h400 : (k + 1) % 400 = 0 → (k + 1) % 100 = 0 := by omega
  have hfour := Nat.div_le_self k 4
  have hcentury : k / 100 ≤ k / 4 := by omega
  simp only [daysBeforeYear,Nat.add_sub_cancel,hleap,succ_div_eq 4 k,succ_div_eq 100 k,succ_div_eq 400 k]
  generalize k / 4 = fours at hfour hcentury ⊢
  generalize k / 100 = centuries at hcentury ⊢
  generalize k / 400 = cycles
  by_cases hf : (k + 1) % 4 = 0 <;> by_cases hc : (k + 1) % 100 = 0 <;> by_cases hcycle : (k + 1) % 400 = 0 <;>
    simp [hf,hc,hcycle] at h100 h400 ⊢ <;> omega

/-- A year ends before any later one begins. -/
theorem daysBeforeYear_lt {year later : Nat} (h : 1 ≤ year) (hlt : year < later) :
    daysBeforeYear year + daysBeforeMonth year 13 ≤ daysBeforeYear later := by
  rw [daysBeforeMonth_end,← daysBeforeYear_succ h]
  induction later, hlt using Nat.le_induction with
  | base => exact Nat.le_refl _
  | succ later hle ih =>
    have hgrow : daysBeforeYear (later + 1) = _ := daysBeforeYear_succ (by omega)
    split at hgrow <;> omega

/-- Whether a date comes before another by its year, then its month, then its day. -/
def IsBefore (d e : Date) : Prop :=
  d.year < e.year ∨ (d.year = e.year ∧ (d.month < e.month ∨ (d.month = e.month ∧ d.day < e.day)))

variable {d e : Date}

theorem isBefore_trichotomy (d e : Date) : d.IsBefore e ∨ d = e ∨ e.IsBefore d := by
  obtain ⟨y,m,n⟩ := d
  obtain ⟨y',m',n'⟩ := e
  simp only [IsBefore,Date.mk.injEq]
  omega

/-- Earlier dates have smaller numbers. -/
theorem IsValid.ordinal_lt (hd : d.IsValid) (he : e.IsValid) (h : d.IsBefore e) : d.ordinal < e.ordinal := by
  have hdyear := hd.year
  have hdmonth := hd.month
  have hdday := hd.day
  have heday := he.day
  rw [ordinal,ordinal]
  rcases h with hyear | ⟨hyear,hmonth | ⟨hmonth,hday⟩⟩
  · have hend := daysBeforeMonth_lt d.year hdmonth.1 (show d.month < 13 by omega)
    have hnext := daysBeforeYear_lt hdyear.1 hyear
    omega
  · have hend := daysBeforeMonth_lt d.year hdmonth.1 hmonth
    rw [← hyear]
    omega
  · rw [← hyear,← hmonth]
    omega

theorem IsValid.isBefore_iff (hd : d.IsValid) (he : e.IsValid) : d.IsBefore e ↔ d.ordinal < e.ordinal := by
  constructor
  · exact hd.ordinal_lt he
  · intro h
    rcases isBefore_trichotomy d e with hbefore | rfl | hafter
    · exact hbefore
    · exact absurd h (Nat.lt_irrefl _)
    · exact absurd h (Nat.lt_asymm (he.ordinal_lt hd hafter))

theorem IsValid.ordinal_inj (hd : d.IsValid) (he : e.IsValid) : d.ordinal = e.ordinal ↔ d = e := by
  constructor
  · intro h
    rcases isBefore_trichotomy d e with hbefore | heq | hafter
    · exact absurd h (Nat.ne_of_lt (hd.ordinal_lt he hbefore))
    · exact heq
    · exact absurd h.symm (Nat.ne_of_lt (he.ordinal_lt hd hafter))
  · intro h
    rw [h]

/-- Texts that start with days that exist are ordered by the days, and then by what follows. -/
theorem IsValid.iso_append_lt (hd : d.IsValid) (he : e.IsValid) (as bs : List Char) :
    d.iso.toList ++ as < e.iso.toList ++ bs ↔ d.ordinal < e.ordinal ∨ (d = e ∧ as < bs) := by
  have hdyear := hd.year
  have heyear := he.year
  have hdmonth := hd.month
  have hemonth := he.month
  have hyear := padded_append_lt (w := 4) (by decide) (show d.year < 10 ^ 4 by omega) (show e.year < 10 ^ 4 by omega)
  have hmonth := padded_append_lt (w := 2) (by decide) (show d.month < 10 ^ 2 by omega) (show e.month < 10 ^ 2 by omega)
  have hday := padded_append_lt (w := 2) (by decide) hd.day_lt he.day_lt
  rw [iso_toList,iso_toList,← hd.isBefore_iff he,IsBefore]
  simp only [List.append_assoc,List.cons_append,hyear,hmonth,hday,List.cons_lt_cons_iff,lt_irrefl,false_or,true_and]
  have hsame : d = e ↔ d.year = e.year ∧ d.month = e.month ∧ d.day = e.day := by
    obtain ⟨y,m,n⟩ := d
    obtain ⟨y',m',n'⟩ := e
    simp
  rw [hsame]
  simp only [and_or_left,and_assoc,or_assoc]

/-- Days that exist are in the order of their texts. -/
theorem IsValid.iso_lt_iff (hd : d.IsValid) (he : e.IsValid) : d.iso < e.iso ↔ d.ordinal < e.ordinal := by
  have h := hd.iso_append_lt he [] []
  rw [String.lt_iff_toList_lt]
  simpa using h

end Date

namespace Moment

open Calendar

variable {m n : Moment}

/-- The text of a distance starts before a fraction of a second would. -/
theorem zoneText_lt_point (offset : Option Int) (cs : List Char) : zoneText offset < '.' :: cs := by
  cases offset with
  | none => exact List.nil_lt_cons _ _
  | some o =>
    rw [zoneText,List.cons_lt_cons_iff]
    left
    split <;> decide

/-- Ends of texts with one distance are ordered by the fractions of a second. -/
theorem fraction_lt_iff {micros micros' : Nat} (h : micros < 10 ^ 6) (h' : micros' < 10 ^ 6) (offset : Option Int) :
    ((if micros ≠ 0 then '.' :: (padded 6 micros).toList else []) ++ zoneText offset <
      (if micros' ≠ 0 then '.' :: (padded 6 micros').toList else []) ++ zoneText offset) ↔ micros < micros' := by
  by_cases hzero : micros = 0 <;> by_cases hzero' : micros' = 0
  · simp [hzero,hzero']
  · rw [if_neg (by simpa using hzero),if_pos hzero',List.nil_append,List.cons_append]
    exact iff_of_true (zoneText_lt_point offset _) (by omega)
  · rw [if_pos hzero,if_neg (by simpa using hzero'),List.nil_append,List.cons_append]
    exact iff_of_false (not_lt_of_gt (zoneText_lt_point offset _)) (by omega)
  · rw [if_pos hzero,if_pos hzero',List.cons_append,List.cons_append,List.cons_lt_cons_iff,
      padded_append_lt (by decide) h h']
    simp

/-- Moments with one distance from universal time, or without any, are in the order of their texts. -/
theorem IsValid.iso_lt_iff (hm : m.IsValid) (hn : n.IsValid) (hoffset : m.offset = n.offset) :
    m.iso < n.iso ↔ m.instant < n.instant := by
  have hhour := padded_append_lt (w := 2) (by decide) (show m.hour < 10 ^ 2 by have := hm.hour; omega)
    (show n.hour < 10 ^ 2 by have := hn.hour; omega)
  have hminute := padded_append_lt (w := 2) (by decide) (show m.minute < 10 ^ 2 by have := hm.minute; omega)
    (show n.minute < 10 ^ 2 by have := hn.minute; omega)
  have hsecond := padded_append_lt (w := 2) (by decide) (show m.second < 10 ^ 2 by have := hm.second; omega)
    (show n.second < 10 ^ 2 by have := hn.second; omega)
  have hfraction := fraction_lt_iff (show m.microsecond < 10 ^ 6 by have := hm.microsecond; omega)
    (show n.microsecond < 10 ^ 6 by have := hn.microsecond; omega) n.offset
  rw [String.lt_iff_toList_lt,iso_toList,iso_toList,hoffset,hm.date.iso_append_lt hn.date,
    ← hm.date.ordinal_inj hn.date]
  simp only [clockText,secondsText,List.append_assoc,List.cons_append,List.cons_lt_cons_iff,hhour,hminute,hsecond,
    hfraction,lt_irrefl,false_or,true_and]
  have hbounds := hm.hour
  have hbounds' := hn.hour
  have hminutes := hm.minute
  have hminutes' := hn.minute
  have hseconds := hm.second
  have hseconds' := hn.second
  have hmicros := hm.microsecond
  have hmicros' := hn.microsecond
  rw [instant,instant,wall,wall,hoffset]
  omega

end Moment

end Trischema
