import Trischema.Proofs.Json.Numbers

/-!
Reading what was written. A document on one line, with blanks after commas and colons, is read back as it was, and
what follows it is left, however many digits its integers have and however deep it is: the limits of an interpreter
on these are not modelled.
-/

namespace Trischema

namespace Json

/-- Whether all the numbers of a document are written with the only mantissa and exponent that they have. -/
inductive IsExact : Json → Prop
  | null : IsExact null
  | bool (b : Bool) : IsExact (bool b)
  | int (n : Int) : IsExact (int n)
  | float (x : Binary64) (h : x.IsCanonical) : IsExact (float x)
  | str (s : String) : IsExact (str s)
  | array (xs : List Json) (h : ∀ x ∈ xs, IsExact x) : IsExact (array xs)
  | object (ms : List (String × Json)) (h : ∀ m ∈ ms, IsExact m.2) : IsExact (object ms)

variable {rest : List Char}

theorem leaf?_int (n : Int) (hrest : Apart rest) : leaf? ((toString n).toList ++ rest) = some (int n, rest) := by
  have hwhole : wholeDigits? (Nat.toDigits 10 n.natAbs ++ rest) = some (Nat.toDigits 10 n.natAbs, rest) := by
    refine wholeDigits?_before (toDigits_digits _) ?_ hrest.noDigit
    rcases Nat.eq_zero_or_pos n.natAbs with hzero | hpos
    · exact .inl (by rw [hzero]; rfl)
    · exact .inr (toDigits_head hpos)
  have hfraction : fractionDigits rest = ([], rest) :=
    fractionDigits_none fun hhead => hrest.ne (show isPlain '.' = true by decide) '.' hhead rfl
  rw [toString_int,List.append_assoc]
  refine leaf?_of_number? ((number?_parts (digit_ne_sign (toDigits_digits _) rest) hwhole hfraction
    hrest.noExponent).trans ?_)
  rw [if_pos ⟨rfl,rfl⟩,digitsValue_toDigits,signed_natAbs]

theorem leaf?_plain {x : Json} {cs : List Char} (hx : x.plainText? = some cs) (hexact : x.IsExact) (hrest : Apart rest) :
    leaf? (cs ++ rest) = some (x, rest) := by
  cases hexact with
  | null => cases hx; rfl
  | bool b => cases hx; cases b <;> rfl
  | int n => cases hx; exact leaf?_int n hrest
  | float x h =>
    cases hx
    cases x with
    | nan => rfl
    | infinite s => cases s <;> rfl
    | finite s m e => exact leaf?_finite s h hrest
  | str s => cases hx
  | array xs h => cases hx
  | object ms h => cases hx

theorem skipBlanks_cons {c : Char} (hc : isBlank c = false) (cs : List Char) : skipBlanks (c :: cs) = c :: cs := by
  rw [skipBlanks,List.dropWhile_cons_of_neg (by rw [hc]; exact Bool.false_ne_true)]

theorem skipBlanks_write (layout : Layout) (depth : Nat) (x : Json) (rest : List Char) :
    skipBlanks (write layout depth x ++ rest) = write layout depth x ++ rest := by
  obtain ⟨c,cs,hcs,hstarts⟩ := write_head layout depth x
  rw [hcs,List.cons_append,skipBlanks_cons]
  have hplain (h : isPlain c = true) : isBlank c = false := by
    rw [isBlank]
    simp only [Bool.or_eq_false_iff,beq_eq_false_iff_ne]
    refine ⟨⟨⟨?_,?_⟩,?_⟩,?_⟩ <;> (rintro rfl; cases h)
  cases x with
  | null | bool b | int n | float x => exact hplain hstarts
  | str s | array xs | object ms => cases hstarts; rfl

/-- Parts of one line after the first of them. -/
def moreParts (parts : List (List Char)) : List Char := parts.flatMap (',' :: ' ' :: ·)

theorem bracketed_spaced (depth : Nat) (opening closing : Char) (part : List Char) (parts : List (List Char)) :
    bracketed .spaced depth opening closing (part :: parts) = opening :: (part ++ moreParts parts ++ [closing]) := by
  have hjoin (part : List Char) (parts : List (List Char)) :
      List.intercalate [',', ' '] (part :: parts) = part ++ moreParts parts := by
    induction parts generalizing part with
    | nil => simp [List.intercalate,moreParts]
    | cons next rest ih =>
      rw [moreParts,List.flatMap_cons,List.cons_append,List.cons_append,← moreParts,← ih next]
      rfl
  exact congrArg (fun cs => opening :: cs ++ [closing]) (hjoin part parts)

theorem moreParts_ends {closing : Char} (hclosing : closing = ']' ∨ closing = '\x7d') (parts : List (List Char))
    (tail : List Char) : Ends (moreParts parts ++ closing :: tail) := by
  cases parts with
  | nil => exact ends_cons (.inr hclosing) tail
  | cons part parts => exact ends_cons (.inl rfl) _

/-- Whether a document is read back as it was written, in any depth and before anything that ends it. -/
def ReadsBack (x : Json) : Prop := ∀ depth rest fuel, Ends rest → 2 * (write .spaced depth x).length ≤ fuel →
  value? fuel (write .spaced depth x ++ rest) = some (x, rest)

theorem readsBack_plain {x : Json} {cs : List Char} (hx : x.plainText? = some cs) (hexact : x.IsExact) :
    x.ReadsBack := by
  intro depth rest fuel hrest hfuel
  have hplain := plainText?_plain hx
  rw [write_plain hx] at hfuel ⊢
  have hleaf := leaf?_plain hx hexact (ends_not_plain hrest)
  obtain ⟨c,more,rfl⟩ := List.exists_cons_of_ne_nil hplain.some
  have hc := hplain.plain c List.mem_cons_self
  obtain ⟨fuel,rfl⟩ : ∃ k, fuel = k + 1 := Nat.exists_eq_add_one.mpr (by rw [List.length_cons] at hfuel; omega)
  rw [List.cons_append] at hleaf ⊢
  rw [value?,if_neg,if_neg,if_neg,hleaf]
  all_goals rintro rfl; cases hc

theorem ite_length_pos {p : Prop} [Decidable p] {as bs : List Char} (ha : 0 < as.length) (hb : 0 < bs.length) :
    0 < (if p then as else bs).length := by
  split
  · exact ha
  · exact hb

theorem length_escaped (cs : List Char) : cs.length ≤ (cs.flatMap escaped).length := by
  have hone (c : Char) : 0 < (escaped c).length := by
    rw [escaped]
    repeat' apply ite_length_pos
    all_goals exact Nat.succ_pos _
  induction cs with
  | nil => exact Nat.zero_le _
  | cons c cs ih =>
    have hc := hone c
    rw [List.flatMap_cons,List.length_append,List.length_cons]
    omega

theorem readsBack_str (s : String) : (str s).ReadsBack := by
  intro depth rest fuel _ hfuel
  have hlength := length_escaped s.toList
  obtain ⟨fuel,rfl⟩ : ∃ k, fuel = s.toList.length + 1 + k + 1 := by
    simp only [write,quotedText,List.length_append,List.length_cons,List.length_nil] at hfuel
    exact ⟨fuel - (s.toList.length + 2),by omega⟩
  rw [write,quotedText,List.cons_append,List.cons_append,List.append_assoc,value?,if_pos rfl,List.singleton_append,
    text?_quoted]
  simp only [Option.map_some,String.ofList_toList]

theorem moreParts_cons (part : List Char) (parts : List (List Char)) (tail : List Char) :
    moreParts (part :: parts) ++ tail = ',' :: ' ' :: (part ++ (moreParts parts ++ tail)) := by
  simp only [moreParts,List.flatMap_cons,List.cons_append,List.append_assoc]

theorem skipBlanks_blank (cs : List Char) : skipBlanks (' ' :: cs) = skipBlanks cs := rfl

theorem items?_spaced (depth fuel : Nat) (rest : List Char) (x : Json) (xs : List Json) (hx : x.ReadsBack)
    (hxs : ∀ y ∈ xs, y.ReadsBack) (hfuel : 2 * (write .spaced depth x ++ moreParts (xs.map (write .spaced depth))).length + 1 ≤ fuel) :
    items? fuel (write .spaced depth x ++ (moreParts (xs.map (write .spaced depth)) ++ ']' :: rest)) =
      some (x :: xs, rest) := by
  induction xs generalizing x fuel with
  | nil =>
    rw [List.length_append] at hfuel
    obtain ⟨fuel,rfl⟩ : ∃ k, fuel = k + 1 := Nat.exists_eq_add_one.mpr (by omega)
    have hread := hx depth _ fuel (moreParts_ends (.inl rfl) ([].map (write .spaced depth)) rest) (by omega)
    rw [items?,hread]
    rfl
  | cons y ys ih =>
    rw [List.map_cons,← List.append_nil (moreParts _),moreParts_cons] at hfuel
    simp only [List.length_append,List.length_cons,List.length_nil] at hfuel
    obtain ⟨fuel,rfl⟩ : ∃ k, fuel = k + 1 := Nat.exists_eq_add_one.mpr (by omega)
    have hread := hx depth _ fuel (moreParts_ends (.inl rfl) ((y :: ys).map (write .spaced depth)) rest) (by omega)
    have hmore := ih fuel y (hxs y List.mem_cons_self) (fun z hz => hxs z (List.mem_cons_of_mem y hz)) (by
      simp only [List.length_append]
      omega)
    rw [items?,hread,List.map_cons,moreParts_cons]
    simp only [Option.bind_eq_bind,Option.bind_some]
    rw [skipBlanks_cons rfl]
    change (items? fuel (skipBlanks (' ' :: (write .spaced depth y ++ _)))).bind _ = _
    rw [skipBlanks_blank,skipBlanks_write,hmore]
    rfl

/-- What is written of a member of an object. -/
def spacedMember (depth : Nat) (m : String × Json) : List Char :=
  quotedText m.1 ++ memberMark .spaced ++ write .spaced depth m.2

/-- A member is read, and then what comes after it. -/
theorem members?_member {depth : Nat} {m : String × Json} (hm : m.2.ReadsBack) (hrest : Ends rest) {fuel : Nat}
    (hfuel : 2 * (spacedMember depth m).length ≤ fuel) : members? (fuel + 1) (spacedMember depth m ++ rest) =
      match skipBlanks rest with
      | ',' :: more => (members? fuel (skipBlanks more)).map fun (ms, rest) => (m :: ms, rest)
      | c :: more => if c = '\x7d' then some ([m], more) else none
      | [] => none := by
  have hlength := length_escaped m.1.toList
  simp only [spacedMember,quotedText,List.length_append,List.length_cons,List.length_nil] at hfuel
  obtain ⟨fuel,rfl⟩ : ∃ k, fuel = m.1.toList.length + 1 + k := Nat.exists_eq_add_of_le (by omega)
  have hread := hm depth _ (m.1.toList.length + 1 + fuel) hrest (by omega)
  have hmark : memberMark .spaced = [':', ' '] := rfl
  simp only [spacedMember,quotedText,List.cons_append,List.append_assoc,List.nil_append,hmark]
  rw [members?,if_pos rfl,text?_quoted]
  simp only [Option.bind_eq_bind,Option.bind_some]
  rw [skipBlanks_cons rfl]
  change (value? _ (skipBlanks (' ' :: (write .spaced depth m.2 ++ rest)))).bind _ = _
  rw [skipBlanks_blank,skipBlanks_write,hread]
  simp only [Option.bind_some,String.ofList_toList,Option.map_eq_bind]
  rfl

/-- The members of an object are read up to its end. -/
theorem members?_spaced (depth fuel : Nat) (rest : List Char) (m : String × Json) (ms : List (String × Json))
    (hm : m.2.ReadsBack) (hms : ∀ n ∈ ms, n.2.ReadsBack)
    (hfuel : 2 * (spacedMember depth m ++ moreParts (ms.map (spacedMember depth))).length + 1 ≤ fuel) :
    members? fuel (spacedMember depth m ++ (moreParts (ms.map (spacedMember depth)) ++ '\x7d' :: rest)) =
      some (m :: ms, rest) := by
  obtain ⟨fuel,rfl⟩ : ∃ k, fuel = k + 1 := Nat.exists_eq_add_one.mpr (by omega)
  induction ms generalizing m fuel with
  | nil =>
    rw [List.length_append] at hfuel
    rw [members?_member hm (moreParts_ends (.inr rfl) ([].map (spacedMember depth)) rest) (by omega)]
    rfl
  | cons n ns ih =>
    rw [List.map_cons,← List.append_nil (moreParts _),moreParts_cons] at hfuel
    simp only [List.length_append,List.length_cons,List.length_nil] at hfuel
    obtain ⟨fuel,rfl⟩ : ∃ k, fuel = k + 1 := Nat.exists_eq_add_one.mpr (by omega)
    have hmore := ih n (hms n List.mem_cons_self) (fun z hz => hms z (List.mem_cons_of_mem n hz)) fuel (by
      simp only [List.length_append]
      omega)
    have hblank (tail : List Char) : skipBlanks (spacedMember depth n ++ tail) = spacedMember depth n ++ tail := rfl
    rw [members?_member hm (moreParts_ends (.inr rfl) ((n :: ns).map (spacedMember depth)) rest) (by omega),
      List.map_cons,moreParts_cons,skipBlanks_cons rfl]
    change (members? _ (skipBlanks (' ' :: (spacedMember depth n ++ _)))).map _ = _
    rw [skipBlanks_blank,hblank,hmore]
    rfl

theorem exists_fuel {layout : Layout} {depth fuel : Nat} {x : Json}
    (hfuel : 2 * (write layout depth x).length ≤ fuel) : ∃ k, fuel = k + 1 := by
  obtain ⟨c,cs,hcs,_⟩ := write_head layout depth x
  rw [hcs,List.length_cons] at hfuel
  exact Nat.exists_eq_add_one.mpr (by omega)

theorem readsBack {x : Json} (hexact : x.IsExact) : x.ReadsBack := by
  induction hexact with
  | null => exact readsBack_plain rfl .null
  | bool b => exact readsBack_plain rfl (.bool b)
  | int n => exact readsBack_plain rfl (.int n)
  | float x h => exact readsBack_plain rfl (.float x h)
  | str s => exact readsBack_str s
  | array xs _ ih =>
    intro depth rest fuel _ hfuel
    obtain ⟨fuel,rfl⟩ := exists_fuel hfuel
    rw [write,writeItems_eq] at hfuel ⊢
    cases xs with
    | nil => rfl
    | cons x xs =>
      rw [List.map_cons,bracketed_spaced] at hfuel ⊢
      simp only [List.length_append,List.length_cons,List.length_nil] at hfuel
      have hread := items?_spaced (depth + 1) fuel rest x xs (ih x List.mem_cons_self)
        (fun y hy => ih y (List.mem_cons_of_mem x hy)) (by simp only [List.length_append]; omega)
      have hblanks := skipBlanks_write .spaced (depth + 1) x
      obtain ⟨c,cs,hcs,hne⟩ := write_ne_bracket .spaced (depth + 1) x
      rw [List.cons_append,List.append_assoc,List.append_assoc,value?,if_neg (by decide),if_pos rfl,hblanks,
        List.singleton_append]
      rw [hcs,List.cons_append] at hread ⊢
      -- What follows the bracket starts with the first item, so it is not taken for the end of an empty array.
      split
      · rename_i heq
        exact absurd (List.cons.inj heq).1 hne
      · rw [hread]
        rfl
  | object ms _ ih =>
    intro depth rest fuel _ hfuel
    obtain ⟨fuel,rfl⟩ := exists_fuel hfuel
    have hmembers : writeMembers .spaced (depth + 1) ms = ms.map (spacedMember (depth + 1)) := writeMembers_eq _ _ ms
    rw [write,hmembers] at hfuel ⊢
    cases ms with
    | nil => rfl
    | cons m ms =>
      rw [List.map_cons,bracketed_spaced] at hfuel ⊢
      simp only [List.length_append,List.length_cons,List.length_nil] at hfuel
      have hread := members?_spaced (depth + 1) fuel rest m ms (ih m List.mem_cons_self)
        (fun y hy => ih y (List.mem_cons_of_mem m hy)) (by simp only [List.length_append]; omega)
      rw [List.cons_append,List.append_assoc,List.append_assoc,value?,if_neg (by decide),if_neg (by decide),if_pos rfl,
        List.singleton_append]
      change (if some Text.doubleMark = some '\x7d' then _ else (members? fuel (spacedMember (depth + 1) m ++ _)).map _) = _
      rw [if_neg (by decide),hread]
      rfl

/-- A document on one line is read back as it was written. -/
theorem read?_render {x : Json} (hexact : x.IsExact) : read? (render .spaced x) = some x := by
  have hblanks := skipBlanks_write .spaced 0 x []
  rw [List.append_nil] at hblanks
  have hread := readsBack hexact 0 [] (2 * (write .spaced 0 x).length + 2) nofun (by omega)
  rw [List.append_nil] at hread
  simp only [read?,render,String.toList_ofList,hblanks,hread]
  rfl

end Json

end Trischema
