import Mathlib.Algebra.Group.Nat.Defs
import Mathlib.Tactic.SplitIfs
import Trischema.Calendar.Reading

/-!
Dates and moments read from their interchange form. A date comes back as it was; a moment does so too, but
for a distance from universal time of less than a second.
-/

namespace Trischema

namespace Calendar

theorem toList_loop (bs : ByteArray) (i : Nat) (r : List UInt8) :
    ByteArray.toList.loop bs i r = r.reverse ++ bs.data.toList.drop i := by
  fun_induction ByteArray.toList.loop bs i r with
  | case1 i r hlt ih =>
    have hi : i < bs.data.toList.length := hlt
    have hget : bs.get! i = bs.data.toList[i] := by
      rw [Array.getElem_toList]
      exact getElem!_pos bs.data i hlt
    rw [ih,List.reverse_cons,List.append_assoc,List.drop_eq_getElem_cons hi,hget]
    rfl
  | case2 i r hge =>
    have hi : bs.data.toList.length ≤ i := Nat.le_of_not_lt hge
    rw [List.drop_eq_nil_of_le hi,List.append_nil]

theorem ofNat_octet {c : Char} (h : c.toNat < 128) : Char.ofNat (UInt8.ofNat c.toNat).toNat = c := by
  rw [UInt8.toNat_ofNat',Nat.mod_eq_of_lt (Nat.lt_trans h (by decide))]
  exact Char.ofNat_toNat c

/-- A text of characters of one byte each is read character by character. -/
theorem octets_ascii {s : String} (h : ∀ c ∈ s.toList, c.toNat < 128) : octets s = s.toList := by
  have hbytes (cs : List Char) (hcs : ∀ c ∈ cs, c.toNat < 128) :
      cs.utf8Encode.data.toList = cs.map fun c => UInt8.ofNat c.toNat := by
    induction cs with
    | nil => rfl
    | cons c rest ih =>
      have hsize : c.utf8Size = 1 := by
        rw [Char.utf8Size_eq_one_iff]
        exact UInt32.le_iff_toNat_le.mpr (Nat.le_of_lt_succ (hcs c List.mem_cons_self))
      rw [List.utf8Encode_cons,List.utf8Encode_singleton,ByteArray.toList_data_append,List.toList_data_toByteArray,
        String.utf8EncodeChar_eq_singleton hsize,ih fun c hc => hcs c (List.mem_cons_of_mem _ hc)]
      rfl
  rw [octets,String.toUTF8_eq_toByteArray,← String.utf8Encode_toList,ByteArray.toList,toList_loop,List.drop_zero,
    hbytes _ h,List.reverse_nil,List.nil_append,List.map_map]
  exact (List.map_congr_left fun c hc => ofNat_octet (h c hc)).trans (List.map_id _)

variable {w n : Nat}

theorem padded_toList (w n : Nat) : (padded w n).toList =
    List.replicate (w - (Nat.toDigits 10 n).length) '0' ++ Nat.toDigits 10 n := by
  rw [padded,String.toList_append,String.toList_ofList,Nat.toString_eq_repr,Nat.toList_repr,
    ← String.length_toList,Nat.toList_repr]

theorem padded_length (hw : 0 < w) (h : n < 10 ^ w) : (padded w n).toList.length = w := by
  have hle := (Nat.length_toDigits_le_iff (by decide) hw).mpr h
  rw [padded_toList,List.length_append,List.length_replicate]
  omega

theorem padded_digits {c : Char} (hc : c ∈ (padded w n).toList) : c.isDigit = true := by
  rw [padded_toList,List.mem_append] at hc
  rcases hc with hc | hc
  · rw [List.eq_of_mem_replicate hc]
    rfl
  · exact Nat.isDigit_of_mem_toDigits (by decide) (by decide) hc

theorem padded_value (w n : Nat) : digitsValue (padded w n).toList = n := by
  change Nat.ofDigitChars 10 _ 0 = n
  rw [padded_toList,Nat.ofDigitChars_append,Nat.ofDigitChars_replicate_zero,Nat.mul_zero]
  exact Nat.ofDigitChars_ten_toDigits

/-- A padded number is read back, with what follows it left over. -/
theorem digits?_padded (hw : 0 < w) (h : n < 10 ^ w) (rest : List Char) :
    digits? w ((padded w n).toList ++ rest) = some (n, rest) := by
  have hlength := padded_length hw h
  have hall : (padded w n).toList.all Char.isDigit = true := List.all_eq_true.mpr fun _ => padded_digits
  rw [digits?,List.take_left' hlength,List.drop_left' hlength,if_pos ⟨hlength,hall⟩,padded_value]

theorem digit_ascii {c : Char} (h : c.isDigit = true) : c.toNat < 128 := by
  rw [Char.isDigit,Bool.and_eq_true,decide_eq_true_eq,decide_eq_true_eq] at h
  exact Nat.lt_of_le_of_lt (UInt32.le_iff_toNat_le.mp h.2) (by decide)

theorem padded_ascii {c : Char} (hc : c ∈ (padded w n).toList) : c.toNat < 128 :=
  digit_ascii (padded_digits hc)

/-- A padded number starts with a digit. -/
theorem padded_head (hw : 0 < w) (h : n < 10 ^ w) :
    ∃ c cs, (padded w n).toList = c :: cs ∧ c.isDigit = true := by
  have hlength := padded_length hw h
  match hlist : (padded w n).toList with
  | [] =>
    rw [hlist,List.length_nil] at hlength
    omega
  | c :: cs => exact ⟨c,cs,rfl,padded_digits (by rw [hlist]; exact List.mem_cons_self)⟩

end Calendar

/-- Whether the fields of a date are those of a day. -/
structure Date.IsValid (d : Date) : Prop where
  year : 1 ≤ d.year ∧ d.year ≤ 9999
  month : 1 ≤ d.month ∧ d.month ≤ 12
  day : 1 ≤ d.day ∧ d.day ≤ Date.daysInMonth d.year d.month

namespace Date.IsValid

open Calendar

variable {d : Date}

theorem day_lt (h : d.IsValid) : d.day < 10 ^ 2 := by
  have hday := h.day.2
  unfold Date.daysInMonth at hday
  split_ifs at hday <;> omega

theorem checked (h : d.IsValid) : checkDate d = .ok d := by
  have hyear := h.year
  have hmonth := h.month
  have hday := h.day
  rw [checkDate,if_neg (by omega),if_neg (by omega),if_neg (by omega)]

theorem iso_toList (d : Date) : d.iso.toList =
    (padded 4 d.year).toList ++ '-' :: ((padded 2 d.month).toList ++ '-' :: (padded 2 d.day).toList) := by
  simp [Date.iso]

/-- The fields of a date are read from its interchange form, whatever follows. -/
theorem dateFields?_iso (h : d.IsValid) (rest : List Char) (len : Nat) :
    dateFields? (d.iso.toList ++ rest) len = some d := by
  have hyear := h.year
  have hmonth := h.month
  obtain ⟨c,cs,hhead,hdigit⟩ := padded_head (w := 2) (by decide) (show d.month < 10 ^ 2 by omega)
  have hmonth? := digits?_padded (w := 2) (by decide) (show d.month < 10 ^ 2 by omega)
    ('-' :: ((padded 2 d.day).toList ++ rest))
  rw [hhead] at hmonth?
  simp only [dateFields?,iso_toList,List.append_assoc,List.cons_append,Option.bind_eq_bind,
    digits?_padded (show 0 < 4 by decide) (show d.year < 10 ^ 4 by omega),Option.bind_some,List.head?_cons,
    BEq.rfl,if_true,List.drop_one,List.tail_cons,hhead]
  split
  · rename_i hweek
    rw [(List.cons.inj hweek).1] at hdigit
    cases hdigit
  · rw [List.cons_append] at hmonth?
    have hday := digits?_padded (w := 2) (by decide) h.day_lt rest
    simp only [hmonth?,Option.bind_some,List.head?_cons,BEq.rfl,if_true,List.tail_cons,hday]

theorem iso_ascii (d : Date) : ∀ c ∈ d.iso.toList, c.toNat < 128 := by
  have hmark : ('-' : Char).toNat < 128 := by decide
  simp only [iso_toList,List.forall_mem_append,List.forall_mem_cons]
  exact ⟨fun _ => padded_ascii,hmark,fun _ => padded_ascii,hmark,fun _ => padded_ascii⟩

theorem iso_length (h : d.IsValid) : d.iso.toList.length = 10 := by
  have hyear := h.year
  have hmonth := h.month
  rw [iso_toList,List.length_append,List.length_cons,List.length_append,List.length_cons,
    padded_length (by decide) (show d.year < 10 ^ 4 by omega),
    padded_length (by decide) (show d.month < 10 ^ 2 by omega),padded_length (by decide) h.day_lt]

/-- The date part of a text that starts with the interchange form of a date. -/
theorem dateLength_iso (h : d.IsValid) (first : Char) (rest : List Char) :
    dateLength (d.iso.toList ++ first :: rest) = some 10 := by
  have hyear := padded_length (w := 4) (by decide) (show d.year < 10 ^ 4 by have := h.year; omega)
  obtain ⟨c,cs,hhead,hdigit⟩ := padded_head (w := 2) (by decide) (show d.month < 10 ^ 2 by have := h.month; omega)
  have hlength := h.iso_length
  have hdash : (d.iso.toList ++ first :: rest)[4]? = some '-' := by
    rw [iso_toList,List.append_assoc,List.getElem?_append_right (by omega),hyear]
    rfl
  have hdigit' : (d.iso.toList ++ first :: rest)[5]? = some c := by
    rw [iso_toList,List.append_assoc,List.getElem?_append_right (by omega),hyear,hhead]
    rfl
  have hweek : c ≠ 'W' := by
    rintro rfl
    cases hdigit
  simp only [dateLength,List.length_append,List.length_cons,hlength,hdash,hdigit']
  rw [if_neg (by omega),if_neg (by omega),if_pos trivial,if_neg (by simpa using hweek)]

/-- A date comes back from its interchange form. -/
theorem read_iso (h : d.IsValid) : Date.read d.iso = .ok d := by
  have hlength := h.iso_length
  have hfields := h.dateFields?_iso [] 10
  rw [List.append_nil] at hfields
  rw [Date.read,octets_ascii (iso_ascii d),if_pos (.inr (.inr hlength)),hlength,hfields]
  exact h.checked

/-- Days that exist are told apart by their text. -/
theorem iso_inj (h : d.IsValid) {e : Date} (he : e.IsValid) : d.iso = e.iso ↔ d = e := by
  refine ⟨fun heq => ?_,fun heq => by rw [heq]⟩
  have hread := h.read_iso
  rw [heq,he.read_iso] at hread
  exact (Except.ok.inj hread).symm

end Date.IsValid

namespace Calendar

/-- Seconds with a fraction, where there is one. -/
def secondsText (second microsecond : Nat) : List Char :=
  (padded 2 second).toList ++ if microsecond ≠ 0 then '.' :: (padded 6 microsecond).toList else []

variable {hour minute second microsecond : Nat} {c : ClockFields} (follows : Bool)

theorem clockFrom_colon (fields : Nat) (c : ClockFields) (first : Char) (tail : List Char) (hn : n < 10 ^ 2) : clockFrom follows (fields + 1) true c
    ((padded 2 n).toList ++ ':' :: first :: tail) =
      clockFrom follows fields true (c.set (2 - fields) n) (first :: tail) := by
  simp [clockFrom,digits?_padded (w := 2) (by decide) hn]

theorem clockFrom_seconds (hsecond : second < 10 ^ 2) (hmicrosecond : microsecond < 10 ^ 6) :
    clockFrom follows 1 true { c with microsecond := 0 } (secondsText second microsecond) =
      some { c with second, microsecond, leftover := follows } := by
  have hread := digits?_padded (w := 2) (by decide) hsecond
  rw [secondsText]
  split
  · have hfraction := digits?_padded (w := 6) (by decide) hmicrosecond []
    have hlength := padded_length (w := 6) (by decide) hmicrosecond
    rw [List.append_nil] at hfraction
    obtain ⟨first,tail,hhead,_⟩ := padded_head (w := 6) (by decide) hmicrosecond
    have hfraction? : fraction? { c with second, microsecond := 0 } follows (first :: tail) =
        some { c with second, microsecond, leftover := follows } := by
      rw [← hhead,fraction?,hlength]
      simp [hfraction]
    rw [hhead]
    simp [clockFrom,hread,ClockFields.set,hfraction?]
  · rename_i hzero
    have hread := hread []
    rw [List.append_nil] at hread
    simp [clockFrom,hread,ClockFields.set,Decidable.not_not.mp hzero]

/-- The text of a time of day to the second, and further where there is a fraction. -/
def clockText (hour minute second microsecond : Nat) : List Char :=
  (padded 2 hour).toList ++ ':' :: ((padded 2 minute).toList ++ ':' :: secondsText second microsecond)

theorem clockFrom_text (hhour : hour < 10 ^ 2) (hminute : minute < 10 ^ 2) (hsecond : second < 10 ^ 2)
    (hmicrosecond : microsecond < 10 ^ 6) : clockFrom follows 3 true {} (clockText hour minute second microsecond) =
      some ⟨hour, minute, second, microsecond, follows⟩ := by
  obtain ⟨first,rest,hhead,_⟩ := padded_head (w := 2) (by decide) hminute
  obtain ⟨first',rest',hhead',_⟩ := padded_head (w := 2) (by decide) hsecond
  have hseconds := clockFrom_seconds (c := ⟨hour, minute, 0, 0, false⟩) follows hsecond hmicrosecond
  have hfirst := clockFrom_colon follows 2 {} first (rest ++ ':' :: secondsText second microsecond) hhour
  rw [clockText,hhead,List.cons_append,hfirst,← List.cons_append,← hhead]
  rw [secondsText,hhead',List.cons_append] at *
  rw [clockFrom_colon _ _ _ _ _ hminute]
  exact hseconds

theorem clockFrom_minutes (hhour : hour < 10 ^ 2) (hminute : minute < 10 ^ 2) :
    clockFrom follows 3 true {} ((padded 2 hour).toList ++ ':' :: (padded 2 minute).toList) =
      some ⟨hour, minute, 0, 0, follows⟩ := by
  obtain ⟨first,rest,hhead,_⟩ := padded_head (w := 2) (by decide) hminute
  have hread := digits?_padded (w := 2) (by decide) hminute []
  rw [List.append_nil] at hread
  rw [hhead,clockFrom_colon _ _ _ _ _ hhour,← hhead]
  simp [clockFrom,hread,ClockFields.set]

/-- The text of a distance, without its sign. -/
def distanceText (micros : Nat) : List Char :=
  if micros % 1000000 ≠ 0 ∨ micros / 1000000 % 60 ≠ 0 then
    clockText (micros / 1000000 / 3600) (micros / 1000000 / 60 % 60) (micros / 1000000 % 60) (micros % 1000000)
  else
    (padded 2 (micros / 1000000 / 3600)).toList ++ ':' :: (padded 2 (micros / 1000000 / 60 % 60)).toList

theorem clockFrom_distance {micros : Nat} (h : micros < 86400000000) :
    clockFrom false 3 true {} (distanceText micros) =
      some ⟨micros / 1000000 / 3600, micros / 1000000 / 60 % 60, micros / 1000000 % 60, micros % 1000000, false⟩ := by
  have hhour : micros / 1000000 / 3600 < 10 ^ 2 := by omega
  have hminute : micros / 1000000 / 60 % 60 < 10 ^ 2 := by omega
  have hsecond : micros / 1000000 % 60 < 10 ^ 2 := by omega
  have hmicrosecond : micros % 1000000 < 10 ^ 6 := by omega
  rw [distanceText]
  split
  · exact clockFrom_text _ hhour hminute hsecond hmicrosecond
  · rename_i hzero
    rw [not_or,Decidable.not_not,Decidable.not_not] at hzero
    rw [clockFrom_minutes _ hhour hminute,hzero.1,hzero.2]

theorem distance_fields (micros : Nat) :
    distance ⟨micros / 1000000 / 3600, micros / 1000000 / 60 % 60, micros / 1000000 % 60, micros % 1000000, false⟩ =
      if micros < 1000000 then 0 else (micros : Int) := by
  simp only [distance]
  split_ifs <;> omega

end Calendar

namespace Moment

open Calendar

variable {m : Moment}

/-- Whether the fields of a moment are those of a time of day with a distance of less than a day. -/
structure IsValid (m : Moment) : Prop where
  date : m.date.IsValid
  hour : m.hour ≤ 23
  minute : m.minute ≤ 59
  second : m.second ≤ 59
  microsecond : m.microsecond < 1000000
  offset : ∀ o ∈ m.offset, o.natAbs < 86400000000

/-- A moment without a distance of less than a second. -/
def settled (m : Moment) : Moment :=
  { m with offset := m.offset.map fun o => if o.natAbs < 1000000 then 0 else o }

/-- The text of a distance with its sign, if there is one. -/
def zoneText (offset : Option Int) : List Char :=
  match offset with
  | some o => (if o < 0 then '-' else '+') :: distanceText o.natAbs
  | none => []

theorem iso_toList (m : Moment) : m.iso.toList =
    m.date.iso.toList ++ 'T' :: (clockText m.hour m.minute m.second m.microsecond ++ zoneText m.offset) := by
  have hzone (o : Int) : (offsetText o).toList = zoneText (some o) := by
    simp only [offsetText,zoneText,distanceText,clockText,secondsText]
    split_ifs <;> simp_all
  rcases m with ⟨d,hour,minute,second,micro,_ | o⟩ <;>
    simp only [iso,isoWith,String.toList_append,hzone,clockText,secondsText] <;>
    split_ifs <;> simp [zoneText]

theorem clockText_forall {motive : Char → Prop} {hour minute second microsecond : Nat}
    (hdigit : ∀ c, c.isDigit = true → motive c) (hcolon : motive ':') (hpoint : motive '.') :
    ∀ c ∈ clockText hour minute second microsecond, motive c := by
  have hpadded (width n : Nat) : ∀ c ∈ (padded width n).toList, motive c := fun c hc => hdigit c (padded_digits hc)
  have hfraction : ∀ c ∈ if microsecond ≠ 0 then '.' :: (padded 6 microsecond).toList else [], motive c := by
    split
    · exact List.forall_mem_cons.mpr ⟨hpoint,hpadded 6 microsecond⟩
    · exact fun c hc => absurd hc List.not_mem_nil
  simp only [clockText,secondsText,List.forall_mem_append,List.forall_mem_cons]
  exact ⟨hpadded 2 hour,hcolon,hpadded 2 minute,hcolon,hpadded 2 second,hfraction⟩

theorem distanceText_ascii (micros : Nat) : ∀ c ∈ distanceText micros, c.toNat < 128 := by
  have hcolon : (':' : Char).toNat < 128 := by decide
  rw [distanceText]
  split
  · exact clockText_forall (fun _ => digit_ascii) hcolon (by decide)
  · rw [List.forall_mem_append,List.forall_mem_cons]
    exact ⟨fun _ => padded_ascii,hcolon,fun _ => padded_ascii⟩

theorem iso_ascii (m : Moment) : ∀ c ∈ m.iso.toList, c.toNat < 128 := by
  have hzone : ∀ c ∈ zoneText m.offset, c.toNat < 128 := by
    cases m.offset with
    | none => exact fun c hc => absurd hc List.not_mem_nil
    | some o =>
      refine List.forall_mem_cons.mpr ⟨?_,distanceText_ascii _⟩
      split <;> decide
  simp only [iso_toList,List.forall_mem_append,List.forall_mem_cons]
  exact ⟨Date.IsValid.iso_ascii m.date,by decide,clockText_forall (fun _ => digit_ascii) (by decide) (by decide),hzone⟩

/-- A time of day is read up to the sign of its distance. -/
theorem time?_text (h : m.IsValid) :
    time? (clockText m.hour m.minute m.second m.microsecond ++ zoneText m.offset) =
      some (⟨m.hour, m.minute, m.second, m.microsecond, m.offset.isSome⟩, m.settled.offset) := by
  have hhour := h.hour
  have hminute := h.minute
  have hsecond := h.second
  have hclock (follows : Bool) := clockFrom_text follows (show m.hour < 10 ^ 2 by omega)
    (show m.minute < 10 ^ 2 by omega) (show m.second < 10 ^ 2 by omega) h.microsecond
  have hmarks : ∀ c ∈ clockText m.hour m.minute m.second m.microsecond, (!isZoneMark c) = true := by
    refine clockText_forall (fun c hc => ?_) rfl rfl
    have hne {mark : Char} (hmark : mark.isDigit = false) : (c == mark) = false :=
      beq_eq_false_iff_ne.mpr fun heq => by simp [← heq,hc] at hmark
    rw [isZoneMark,hne rfl,hne rfl,hne rfl]
    rfl
  simp only [time?,List.takeWhile_append_of_pos hmarks,List.dropWhile_append_of_pos hmarks]
  cases ho : m.offset with
  | none => simp [zoneText,hclock,settled,ho]
  | some o =>
    have hread := clockFrom_distance (h.offset o ho)
    have hdistance := distance_fields o.natAbs
    obtain ⟨n,hn⟩ : ∃ n, o.natAbs = n := ⟨_,rfl⟩
    rw [hn] at hread hdistance
    by_cases hsign : o < 0
    · simp [zoneText,hsign,isZoneMark,hclock,hread,hdistance,settled,ho,hn]
      split <;> omega
    · simp [zoneText,hsign,isZoneMark,hclock,hread,hdistance,settled,ho,hn]
      split <;> omega

theorem settled_offset (h : m.IsValid) {o : Int} (ho : m.settled.offset = some o) :
    ¬ (o ≤ -dayMicros ∨ o ≥ dayMicros) := by
  obtain ⟨given,hgiven,rfl⟩ := Option.map_eq_some_iff.mp ho
  have hlt := h.offset given hgiven
  unfold dayMicros
  split <;> omega

/-- A moment comes back from its interchange form, with a distance of less than a second left out. -/
theorem read_iso (h : m.IsValid) : Moment.read m.iso = .ok m.settled := by
  have hhour := h.hour
  have hminute := h.minute
  have hsecond := h.second
  have hdate := h.date.iso_length
  have hrest {rest : List Char} : (m.date.iso.toList ++ 'T' :: rest).drop 11 = rest := by
    rw [List.append_cons]
    exact List.drop_left' (by rw [List.length_append,hdate,List.length_singleton])
  have hfields : (do
      let d ← checkDate m.date
      if m.hour > 23 then .error .hour
      else if m.minute > 59 then .error .minute
      else if m.second > 59 then .error .second
      else .ok ⟨d, m.hour, m.minute, m.second, m.microsecond, m.settled.offset⟩) =
        (.ok m.settled : Except CalendarFault Moment) := by
    rw [h.date.checked]
    change (if _ then _ else _) = _
    rw [if_neg (by omega),if_neg (by omega),if_neg (by omega)]
    rfl
  rw [Moment.read,octets_ascii (iso_ascii m),iso_toList]
  simp only [h.date.dateLength_iso,h.date.dateFields?_iso,List.length_append,List.length_cons,hdate,
    List.getElem?_append_right (Nat.le_of_eq hdate)]
  rw [if_pos (by omega)]
  simp only [Nat.sub_self,List.getElem?_cons_zero,Option.map_some,Option.getD_some,show octetCount 'T' = 1 from rfl,hrest,
    time?_text h]
  cases hzone : m.settled.offset with
  | none =>
    rw [hzone] at hfields
    exact hfields
  | some o =>
    rw [hzone] at hfields
    change (if o ≤ -dayMicros ∨ o ≥ dayMicros then _ else _) = _
    rw [if_neg (settled_offset h hzone)]
    exact hfields

end Moment

end Trischema
