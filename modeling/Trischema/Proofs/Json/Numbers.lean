import Trischema.Proofs.Json.Writing
import Trischema.Proofs.Number.Shortest

/-!
Reading numbers of documents. A number that is written with the shortest digits that round to it is read back as it
was, in every layout of the digits.
-/

namespace Trischema

namespace Json

/-- The sign of a number, if it has one. -/
def signText (negative : Bool) : List Char := if negative then ['-'] else []

variable {negative : Bool} {body whole more fraction more' rest : List Char} {exponent : Option Int}

theorem signText_parts (negative : Bool) (hbody : body.head? ≠ some '-') : ((signText negative ++ body).head? == some '-') = negative ∧
    (if negative then (signText negative ++ body).drop 1 else signText negative ++ body) = body := by
  cases negative with
  | true => exact ⟨rfl,rfl⟩
  | false => exact ⟨beq_eq_false_iff_ne.mpr hbody,rfl⟩

theorem number?_parts (hbody : body.head? ≠ some '-') (hwhole : wholeDigits? body = some (whole, more))
    (hfraction : fractionDigits more = (fraction, more')) (hexponent : exponentPart more' = (exponent, rest)) :
    number? (signText negative ++ body) =
      if fraction.isEmpty ∧ exponent.isNone then
        some (int (if negative then -(digitsValue whole : Int) else digitsValue whole), rest)
      else some (float (Binary64.ofDecimal negative (digitsValue (whole ++ fraction))
        (exponent.getD 0 - fraction.length)), rest) := by
  obtain ⟨hsign,hrest⟩ := signText_parts negative hbody
  simp only [number?,hsign,hrest,hwhole,hfraction,hexponent,Option.bind_eq_bind,Option.bind_some]

/-- Whether characters are digits, and there are some. -/
structure Digits (cs : List Char) : Prop where
  digits : ∀ c ∈ cs, c.isDigit = true
  some : cs ≠ []

theorem zero_digits : Digits ['0'] := ⟨List.all_eq_true.mp rfl,List.cons_ne_nil _ _⟩

/-- Whether what follows digits is no digit. -/
def NoDigit (rest : List Char) : Prop := ∀ c ∈ rest.head?, c.isDigit = false

theorem noDigit_cons {c : Char} (hc : c.isDigit = false) : NoDigit (c :: rest) := by
  rintro d ⟨⟩
  exact hc

theorem span_digits {cs : List Char} (hcs : ∀ c ∈ cs, c.isDigit = true) (hrest : NoDigit rest) :
    (cs ++ rest).takeWhile Char.isDigit = cs ∧ (cs ++ rest).dropWhile Char.isDigit = rest := by
  have hnone : rest.takeWhile Char.isDigit = [] ∧ rest.dropWhile Char.isDigit = rest := by
    cases rest with
    | nil => exact ⟨rfl,rfl⟩
    | cons c cs => simp [hrest c rfl]
  rw [List.takeWhile_append_of_pos hcs,List.dropWhile_append_of_pos hcs,hnone.1,hnone.2,List.append_nil]
  exact ⟨rfl,rfl⟩

theorem wholeDigits?_zero (rest : List Char) : wholeDigits? ('0' :: rest) = some (['0'], rest) := rfl

theorem wholeDigits?_digits {cs : List Char} (hcs : Digits cs) (hzero : cs.head? ≠ some '0') (hrest : NoDigit rest) :
    wholeDigits? (cs ++ rest) = some (cs, rest) := by
  obtain ⟨htake,hdrop⟩ := span_digits hcs.digits hrest
  obtain ⟨c,ds,rfl⟩ := List.exists_cons_of_ne_nil hcs.some
  rw [wholeDigits?,htake,hdrop]
  · rfl
  · intro ds' hds
    exact hzero (congrArg List.head? hds)

theorem wholeDigits?_before {cs : List Char} (hcs : Digits cs) (hzero : cs = ['0'] ∨ cs.head? ≠ some '0')
    (hrest : NoDigit rest) : wholeDigits? (cs ++ rest) = some (cs, rest) := by
  rcases hzero with rfl | hzero
  · exact wholeDigits?_zero rest
  · exact wholeDigits?_digits hcs hzero hrest

theorem fractionDigits_digits {cs : List Char} (hcs : Digits cs) (hrest : NoDigit rest) :
    fractionDigits ('.' :: (cs ++ rest)) = (cs, rest) := by
  obtain ⟨htake,hdrop⟩ := span_digits hcs.digits hrest
  have hsome : cs.isEmpty = false := List.isEmpty_eq_false_iff.mpr hcs.some
  simp only [fractionDigits,htake,hdrop,hsome,Bool.false_eq_true,if_false]

theorem fractionDigits_none (hrest : rest.head? ≠ some '.') : fractionDigits rest = ([], rest) := by
  rw [fractionDigits]
  rintro ds rfl
  exact hrest rfl

theorem exponentPart_digits {cs : List Char} (below : Bool) (hcs : Digits cs) (hrest : NoDigit rest) :
    exponentPart ('e' :: (if below then '-' else '+') :: (cs ++ rest)) =
      (some (if below then -(digitsValue cs : Int) else digitsValue cs), rest) := by
  obtain ⟨htake,hdrop⟩ := span_digits hcs.digits hrest
  have hsome : cs.isEmpty = false := List.isEmpty_eq_false_iff.mpr hcs.some
  cases below <;> simp [exponentPart,splitSign,htake,hdrop,hsome]

theorem exponentPart_none (hrest : ∀ c ∈ rest.head?, c ≠ 'e' ∧ c ≠ 'E') : exponentPart rest = (none, rest) := by
  cases rest with
  | nil => rfl
  | cons c cs =>
    obtain ⟨hlower,hupper⟩ := hrest c rfl
    rw [exponentPart,if_neg (not_or.mpr ⟨hlower,hupper⟩)]

/-- Whether what follows a number does not go on with it. -/
def Apart (rest : List Char) : Prop := ∀ c ∈ rest.head?, isPlain c = false

theorem Apart.ne (h : Apart rest) {d : Char} (hd : isPlain d = true) : ∀ c ∈ rest.head?, c ≠ d := by
  rintro c hc rfl
  rw [h c hc] at hd
  cases hd

theorem Apart.noDigit (h : Apart rest) : NoDigit rest := by
  intro c hc
  rw [Bool.eq_false_iff]
  intro hdigit
  have hplain := h c hc
  rw [isPlain_digit hdigit] at hplain
  cases hplain

theorem Apart.noExponent (h : Apart rest) : exponentPart rest = (none, rest) :=
  exponentPart_none fun c hc => ⟨h.ne (by decide) c hc,h.ne (by decide) c hc⟩

/-- Whether a text without a sign is read as a number from a decimal of the given value. -/
def ReadsAs (body : List Char) (v : ℚ) : Prop := ∃ (digits : Nat) (power : Int), (digits * 10 ^ power : ℚ) = v ∧
  ∀ negative rest, Apart rest →
    number? (signText negative ++ (body ++ rest)) = some (float (Binary64.ofDecimal negative digits power), rest)

theorem digit_ne_sign {cs : List Char} (hcs : Digits cs) (rest : List Char) : (cs ++ rest).head? ≠ some '-' := by
  obtain ⟨c,ds,rfl⟩ := List.exists_cons_of_ne_nil hcs.some
  intro hhead
  have hdigit := hcs.digits c List.mem_cons_self
  rw [Option.some.inj hhead] at hdigit
  cases hdigit

/-- Digits with a point among them, the first of which is no zero unless it stands alone. -/
theorem readsAs_point (cs ds : List Char) (hcs : Digits cs) (hds : Digits ds) (hzero : cs = ['0'] ∨ cs.head? ≠ some '0') :
    ReadsAs (cs ++ '.' :: ds) (digitsValue (cs ++ ds) * 10 ^ (-ds.length : Int)) := by
  refine ⟨_,_,rfl,fun negative rest hrest => ?_⟩
  have hwhole := wholeDigits?_before hcs hzero (show NoDigit ('.' :: (ds ++ rest)) from noDigit_cons rfl)
  rw [List.append_assoc,List.cons_append,number?_parts (digit_ne_sign hcs _) hwhole
    (fractionDigits_digits hds hrest.noDigit) hrest.noExponent,if_neg,Option.getD_none,Int.zero_sub]
  rintro ⟨hempty,_⟩
  exact hds.some (List.isEmpty_iff.mp hempty)

/-- A sign and the digits of an exponent, after its mark. -/
def exponentText (below : Bool) (es : List Char) : List Char := 'e' :: (if below then '-' else '+') :: es

def exponentValue (below : Bool) (es : List Char) : Int := if below then -(digitsValue es : Int) else digitsValue es

theorem readsAs_exponent {cs es : List Char} (below : Bool) (hcs : Digits cs) (hes : Digits es)
    (hzero : cs.head? ≠ some '0') :
    ReadsAs (cs ++ exponentText below es) (digitsValue cs * 10 ^ exponentValue below es) := by
  refine ⟨_,_,rfl,fun negative rest hrest => ?_⟩
  have hwhole := wholeDigits?_before hcs (.inr hzero) (show NoDigit (exponentText below es ++ rest) from noDigit_cons rfl)
  rw [List.append_assoc,number?_parts (digit_ne_sign hcs _) hwhole (fractionDigits_none (nomatch ·))
    (exponentPart_digits below hes hrest.noDigit),if_neg (nomatch ·.2),List.append_nil]
  exact congrArg (fun power => some (float (Binary64.ofDecimal negative (digitsValue cs) power), rest)) (Int.sub_zero _)

theorem readsAs_point_exponent {cs ds es : List Char} (below : Bool) (hcs : Digits cs) (hds : Digits ds) (hes : Digits es)
    (hzero : cs.head? ≠ some '0') : ReadsAs (cs ++ '.' :: (ds ++ exponentText below es))
      (digitsValue (cs ++ ds) * 10 ^ (exponentValue below es - ds.length)) := by
  refine ⟨_,_,rfl,fun negative rest hrest => ?_⟩
  have hwhole := wholeDigits?_before hcs (.inr hzero)
    (show NoDigit ('.' :: (ds ++ (exponentText below es ++ rest))) from noDigit_cons rfl)
  rw [List.append_assoc,List.cons_append,List.append_assoc,number?_parts (digit_ne_sign hcs _) hwhole
    (fractionDigits_digits hds (noDigit_cons rfl)) (exponentPart_digits below hes hrest.noDigit),if_neg (nomatch ·.2)]
  rfl

theorem digitsValue_append (cs ds : List Char) :
    digitsValue (cs ++ ds) = 10 ^ ds.length * digitsValue cs + digitsValue ds := by
  change Nat.ofDigitChars 10 (cs ++ ds) 0 = _
  rw [Nat.ofDigitChars_append,Nat.ofDigitChars_eq_ofDigitChars_zero]
  rfl

theorem digitsValue_zeros (n : Nat) : digitsValue (List.replicate n '0') = 0 := Nat.ofDigitChars_replicate_zero

theorem digitsValue_toDigits (n : Nat) : digitsValue (Nat.toDigits 10 n) = n := Nat.ofDigitChars_ten_toDigits

theorem toDigits_digits (n : Nat) : Digits (Nat.toDigits 10 n) :=
  ⟨fun _ hc => Nat.isDigit_of_mem_toDigits (by decide) (by decide) hc,Nat.toDigits_ne_nil⟩

theorem zeros_digits (n : Nat) : ∀ c ∈ List.replicate n '0', c.isDigit = true := by
  intro c hc
  rw [(List.mem_replicate.mp hc).2]
  rfl

theorem digits_append {cs ds : List Char} (hcs : Digits cs) (hds : ∀ c ∈ ds, c.isDigit = true) : Digits (cs ++ ds) :=
  ⟨List.forall_mem_append.mpr ⟨hcs.digits,hds⟩,List.append_ne_nil_of_left_ne_nil hcs.some ds⟩

/-- The digits of a positive number do not start with a zero. -/
theorem toDigits_head {n : Nat} (hn : 0 < n) : (Nat.toDigits 10 n).head? ≠ some '0' := by
  induction n using Nat.strongRecOn with
  | _ n ih =>
    rw [Nat.toDigits_eq_if (by decide)]
    split
    · rename_i hsmall
      have hall : ∀ k : Fin 10, 0 < k.val → [k.val.digitChar].head? ≠ some '0' := by decide
      exact hall ⟨n,hsmall⟩ hn
    · rw [List.head?_append_of_ne_nil _ Nat.toDigits_ne_nil]
      exact ih (n / 10) (by omega) (by omega)

theorem toString_toList (n : Nat) : (toString n).toList = Nat.toDigits 10 n := by
  rw [Nat.toString_eq_repr,Nat.toList_repr]

theorem toString_length (n : Nat) : (toString n).length = (Nat.toDigits 10 n).length := by
  rw [← String.length_toList,toString_toList]

/-- A whole number as text: its sign, and the digits of its distance from zero. -/
theorem toString_int (n : Int) : (toString n).toList = signText (decide (n < 0)) ++ Nat.toDigits 10 n.natAbs := by
  cases n with
  | ofNat k => exact toString_toList k
  | negSucc k =>
    have htext : (toString (Int.negSucc k)).toList = '-' :: (toString (k + 1)).toList := String.toList_append
    rw [htext,toString_toList,decide_eq_true (Int.negSucc_lt_zero k),Int.natAbs_negSucc]
    rfl

theorem signed_natAbs (n : Int) : (if decide (n < 0) then -(n.natAbs : Int) else n.natAbs) = n := by
  rcases Int.lt_or_le n 0 with hneg | hpos
  · rw [decide_eq_true hneg,if_pos rfl]
    omega
  · rw [decide_eq_false (by omega),if_neg Bool.false_ne_true]
    omega

theorem zeros_toList (n : Nat) : (NumberStyle.zeros n).toList = List.replicate n '0' := String.toList_ofList

/-- Digits with the point after some of them, or among zeros, are read as what they say. -/
theorem positional_readsAs {d : Nat} (hd : 0 < d) (point : Int) :
    ReadsAs (NumberStyle.document.positional (toString d) point).toList
      (d * 10 ^ (point - (Nat.toDigits 10 d).length)) := by
  have hdigits := toDigits_digits d
  have hvalue := digitsValue_toDigits d
  have hhead := toDigits_head hd
  rw [NumberStyle.positional,toString_length,toString_toList]
  generalize hlength : (Nat.toDigits 10 d).length = n
  split
  · rename_i hpoint
    have hread := readsAs_point ['0'] (List.replicate (-point).toNat '0' ++ Nat.toDigits 10 d)
      zero_digits ⟨List.forall_mem_append.mpr ⟨zeros_digits _,hdigits.digits⟩,
        List.append_ne_nil_of_right_ne_nil _ hdigits.some⟩ (.inl rfl)
    have hsame : digitsValue ['0'] = 0 := rfl
    have hpower : (-((List.replicate (-point).toNat '0' ++ Nat.toDigits 10 d).length : Int)) = point - n := by
      rw [List.length_append,List.length_replicate,hlength]
      omega
    rw [hpower,digitsValue_append,digitsValue_append,hsame,digitsValue_zeros,hvalue,Nat.mul_zero,Nat.mul_zero,
      Nat.zero_add,Nat.zero_add] at hread
    simp only [String.toList_append,zeros_toList,toString_toList,List.append_assoc]
    exact hread
  · split
    · rename_i hpoint
      have hread := readsAs_point _ ['0'] (digits_append hdigits (zeros_digits (point.toNat - n)))
        zero_digits (.inr (by rw [List.head?_append_of_ne_nil _ hdigits.some]; exact hhead))
      have hsame : digitsValue ['0'] = 0 := rfl
      have hpower : point - n = ((point.toNat - n : Nat) : Int) := by omega
      have hsame' : (d * 10 ^ (point - n) : ℚ) =
          (10 ^ 1 * (10 ^ (point.toNat - n) * d + 0) + 0 : Nat) * 10 ^ (-(1 : Nat) : Int) := by
        rw [hpower,zpow_natCast,Nat.cast_one,zpow_neg_one]
        push_cast
        ring
      rw [digitsValue_append,digitsValue_append,hsame,digitsValue_zeros,hvalue,List.length_replicate] at hread
      rw [hsame']
      simp only [String.toList_append,zeros_toList,toString_toList]
      exact hread
    · rename_i hlow hhigh
      have hread := readsAs_point ((Nat.toDigits 10 d).take point.toNat) ((Nat.toDigits 10 d).drop point.toNat)
        ⟨fun c hc => hdigits.digits c (List.mem_of_mem_take hc),by simp [Nat.toDigits_ne_nil]; omega⟩
        ⟨fun c hc => hdigits.digits c (List.mem_of_mem_drop hc),by simp; omega⟩
        (.inr (by rw [List.head?_take,if_neg (by omega)]; exact hhead))
      have hpower : (-(((Nat.toDigits 10 d).drop point.toNat).length : Int)) = point - n := by
        rw [List.length_drop,hlength]
        omega
      rw [hpower,List.take_append_drop,hvalue] at hread
      simp only [String.toList_append,String.toList_ofList,List.append_assoc]
      exact hread

theorem exponentText_eq (exponent : Int) : ∃ es, Digits es ∧
    ("e" ++ (if exponent < 0 then "-" else "+") ++ NumberStyle.zeros (2 - (toString exponent.natAbs).length) ++
      toString exponent.natAbs).toList = exponentText (decide (exponent < 0)) es ∧
    exponentValue (decide (exponent < 0)) es = exponent := by
  refine ⟨List.replicate (2 - (toString exponent.natAbs).length) '0' ++ Nat.toDigits 10 exponent.natAbs,?_,?_,?_⟩
  · exact ⟨List.forall_mem_append.mpr ⟨zeros_digits _,(toDigits_digits _).digits⟩,
      List.append_ne_nil_of_right_ne_nil _ Nat.toDigits_ne_nil⟩
  · simp only [String.toList_append,zeros_toList,toString_toList,List.append_assoc]
    rcases Int.lt_or_le exponent 0 with hneg | hpos
    · rw [decide_eq_true hneg,if_pos hneg]
      rfl
    · rw [decide_eq_false (by omega),if_neg (by omega)]
      rfl
  · rw [exponentValue,digitsValue_append,digitsValue_zeros,digitsValue_toDigits]
    rcases Int.lt_or_le exponent 0 with hneg | hpos
    · rw [decide_eq_true hneg,if_pos rfl]
      omega
    · rw [decide_eq_false (by omega),if_neg Bool.false_ne_true]
      omega

theorem scientific_layout {digits : String} {c : Char} {ds : List Char} (hdigits : digits.toList = c :: ds) (exponent : Int) :
    NumberStyle.document.scientific digits exponent = String.ofList [c] ++
      ((if ds.isEmpty then "" else "." ++ String.ofList ds) ++ ("e" ++ (if exponent < 0 then "-" else "+") ++
      NumberStyle.zeros (2 - (toString exponent.natAbs).length) ++ toString exponent.natAbs)) := by
  simp only [NumberStyle.scientific,hdigits,← String.append_assoc]
  rfl

/-- The first digit, the others as a fraction and an exponent are read as what they say. -/
theorem scientific_readsAs {d : Nat} (hd : 0 < d) (exponent : Int) :
    ReadsAs (NumberStyle.document.scientific (toString d) exponent).toList
      (d * 10 ^ (exponent + 1 - (Nat.toDigits 10 d).length)) := by
  have hdigits := toDigits_digits d
  have hvalue := digitsValue_toDigits d
  have hhead := toDigits_head hd
  obtain ⟨es,hes,htext,hexponent⟩ := exponentText_eq exponent
  obtain ⟨c,ds,hcs⟩ := List.exists_cons_of_ne_nil hdigits.some
  have hlayout := scientific_layout ((toString_toList d).trans hcs) exponent
  rw [hcs] at hdigits hvalue hhead ⊢
  have hfirst : Digits [c] := ⟨fun x hx => hdigits.digits x (List.mem_cons.mpr (.inl (List.mem_singleton.mp hx))),List.cons_ne_nil _ _⟩
  rw [hlayout,String.toList_append,String.toList_append,htext,String.toList_ofList]
  cases ds with
  | nil =>
    have hread := readsAs_exponent (decide (exponent < 0)) hfirst hes hhead
    rw [hvalue,hexponent] at hread
    have hpower : exponent + 1 - ([c].length : Int) = exponent := by
      rw [List.length_singleton]
      omega
    rw [hpower]
    exact hread
  | cons x xs =>
    have hothers : Digits (x :: xs) := ⟨fun y hy => hdigits.digits y (List.mem_cons_of_mem c hy),List.cons_ne_nil _ _⟩
    have hread := readsAs_point_exponent (decide (exponent < 0)) hfirst hothers hes hhead
    rw [show digitsValue ([c] ++ x :: xs) = d from hvalue,hexponent] at hread
    have hpower : exponent + 1 - ((c :: x :: xs).length : Int) = exponent - (x :: xs).length := by
      rw [List.length_cons]
      omega
    rw [hpower,List.isEmpty_cons,if_neg Bool.false_ne_true,String.toList_append,List.append_assoc,
      show (String.ofList (x :: xs)).toList = x :: xs from String.toList_ofList]
    exact hread

theorem layOut_readsAs {x : Binary64.Decimal} (hx : 0 < x.digits) :
    ReadsAs (NumberStyle.document.layOut x).toList (x.digits * 10 ^ x.power) := by
  rw [NumberStyle.layOut,toString_length]
  split
  · have hread := positional_readsAs hx ((Nat.toDigits 10 x.digits).length - 1 + x.power + 1)
    rwa [show ((Nat.toDigits 10 x.digits).length - 1 + x.power + 1 - (Nat.toDigits 10 x.digits).length : Int) = x.power
      by omega] at hread
  · have hread := scientific_readsAs hx ((Nat.toDigits 10 x.digits).length - 1 + x.power)
    rwa [show ((Nat.toDigits 10 x.digits).length - 1 + x.power + 1 - (Nat.toDigits 10 x.digits).length : Int) = x.power
      by omega] at hread

theorem leaf?_of_number? {cs : List Char} {r : Json × List Char} (h : number? cs = some r) : leaf? cs = some r := by
  have hword : ∀ entry ∈ words, ∀ more, number? (entry.1.toList ++ more) = none := by
    simp only [words,List.forall_mem_cons]
    exact ⟨fun _ => rfl,fun _ => rfl,fun _ => rfl,fun _ => rfl,fun _ => rfl,fun _ => rfl,List.forall_mem_nil _⟩
  have hnone : words.findSome? (fun entry => (word? entry.1 cs).map (entry.2, ·)) = none := by
    refine List.findSome?_eq_none_iff.mpr fun entry hentry => ?_
    have hprefix : ¬entry.1.toList.isPrefixOf cs = true := by
      rw [List.isPrefixOf_iff_prefix]
      rintro ⟨more,rfl⟩
      rw [hword entry hentry more] at h
      cases h
    change (if entry.1.toList.isPrefixOf cs = true then _ else none : Option (List Char)).map _ = none
    rw [if_neg hprefix]
    rfl
  rw [leaf?,hnone]
  exact h

theorem leaf?_finite {m : Nat} {e : Int} (negative : Bool) (hfits : Binary64.Fits m e) (hrest : Apart rest) :
    leaf? ((NumberStyle.document.render (.finite negative m e)).toList ++ rest) =
      some (float (.finite negative m e), rest) := by
  have hsign : (if negative then "-" else "").toList = signText negative := by cases negative <;> rfl
  obtain ⟨digits,power,hvalue,hread⟩ : ReadsAs (if m = 0 then NumberStyle.document.positional "0" 1
      else NumberStyle.document.layOut (Binary64.shortest m e)).toList
        (if m = 0 then 0 else (Binary64.shortest m e).digits * 10 ^ (Binary64.shortest m e).power) := by
    split
    · have hread := readsAs_point ['0'] ['0'] zero_digits zero_digits (.inl rfl)
      rwa [show digitsValue (['0'] ++ ['0']) = 0 from rfl,Nat.cast_zero,zero_mul] at hread
    · rename_i hm
      exact layOut_readsAs (Binary64.shortest_rounds (Nat.pos_of_ne_zero hm) hfits).1
  have htext : (NumberStyle.document.render (.finite negative m e)).toList = signText negative ++ (if m = 0 then
      NumberStyle.document.positional "0" 1 else NumberStyle.document.layOut (Binary64.shortest m e)).toList := by
    rw [← hsign,← String.toList_append]
    rfl
  rw [htext,List.append_assoc]
  refine leaf?_of_number? ((hread negative rest hrest).trans ?_)
  have hten : (10 : ℚ) ^ power ≠ 0 := zpow_ne_zero power (by norm_num)
  split at hvalue
  · rename_i hm
    obtain rfl : digits = 0 := by simpa [hten] using hvalue
    obtain rfl := hfits.full.resolve_left (by rw [hm]; decide)
    rw [hm]
    rfl
  · rename_i hm
    have hm := Nat.pos_of_ne_zero hm
    obtain ⟨hpos,hrounds⟩ := Binary64.shortest_rounds hm hfits
    rw [← hvalue] at hrounds
    have hdigits : 0 < digits := by
      rw [Nat.pos_iff_ne_zero]
      rintro rfl
      rw [Nat.cast_zero,zero_mul] at hvalue
      have hpositive : (0 : ℚ) < (Binary64.shortest m e).digits * 10 ^ (Binary64.shortest m e).power := by positivity
      exact hpositive.ne hvalue
    rw [Binary64.ofDecimal_eq negative hdigits hm hfits hrounds]

end Json

end Trischema
