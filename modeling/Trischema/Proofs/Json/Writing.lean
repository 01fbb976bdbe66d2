import Mathlib.Tactic.SplitIfs
import Trischema.Json.Reader
import Trischema.Proofs.Lists

/-!
Texts of documents that are written on one line can be told apart from what follows them, so that a text
determines the parts of its document.
-/

namespace Trischema

namespace Json

theorem hexDigitValue?_hexDigit {n : Nat} (h : n < 16) : Text.hexDigitValue? (Text.hexDigit n) = some n := by
  have hall : ∀ n : Fin 16, Text.hexDigitValue? (Text.hexDigit n) = some n.val := by decide
  exact hall ⟨n,h⟩

theorem unit?_hex {n : Nat} (h : n < 0x10000) (rest : List Char) : unit? (Text.hex 4 n ++ rest) = some (n, rest) := by
  have hdigits : Text.hex 4 n = [Text.hexDigit (n / 4096 % 16), Text.hexDigit (n / 256 % 16),
      Text.hexDigit (n / 16 % 16), Text.hexDigit (n % 16)] := by
    simp [Text.hex,List.range_succ]
  have hdigit (k : Nat) : Text.hexDigitValue? (Text.hexDigit (k % 16)) = some (k % 16) :=
    hexDigitValue?_hexDigit (Nat.mod_lt k (by decide))
  rw [hdigits]
  simp only [List.cons_append,List.nil_append,unit?,hdigit,Option.bind_eq_bind,Option.bind_some,Option.some.injEq,
    Prod.mk.injEq,and_true]
  omega

theorem toNat_valid (c : Char) : c.toNat < 0xD800 ∨ 0xDFFF < c.toNat ∧ c.toNat < 0x110000 := c.valid

theorem escape?_small {c : Char} (hsmall : c.toNat < 0x10000) (rest : List Char) :
    escape? ('u' :: (Text.hex 4 c.toNat ++ rest)) = some (c, rest) := by
  have hvalid := toNat_valid c
  have hhigh : isHigh c.toNat = false := by
    simp [isHigh]
    omega
  have hlow : isLow c.toNat = false := by
    simp [isLow]
    omega
  rw [escape?,unit?_hex hsmall]
  simp [hhigh,hlow]

theorem escape?_large {c : Char} (hlarge : 0x10000 ≤ c.toNat) (rest : List Char) :
    escape? ('u' :: (Text.hex 4 (0xD800 + (c.toNat - 0x10000) / 0x400) ++
      '\\' :: 'u' :: (Text.hex 4 (0xDC00 + (c.toNat - 0x10000) % 0x400) ++ rest))) = some (c, rest) := by
  have hvalid := toNat_valid c
  obtain ⟨near,hnear⟩ : ∃ near, 0xD800 + (c.toNat - 0x10000) / 0x400 = near := ⟨_,rfl⟩
  obtain ⟨far,hfar⟩ : ∃ far, 0xDC00 + (c.toNat - 0x10000) % 0x400 = far := ⟨_,rfl⟩
  have hhigh : isHigh near = true := by
    simp [isHigh]
    omega
  have hlow : isLow far = true := by
    simp [isLow]
    omega
  have hsum : 0x10000 + (near - 0xD800) * 0x400 + (far - 0xDC00) = c.toNat := by omega
  rw [hnear,hfar,escape?,unit?_hex (by omega)]
  simp only [Option.bind_eq_bind,Option.bind_some,hhigh,if_true,unit?_hex (show far < 0x10000 by omega),hlow,hsum]
  rw [Char.ofNat_toNat]

/-- What is written of a character is read as the character. -/
theorem text?_escaped (c : Char) (fuel : Nat) (rest : List Char) :
    text? (fuel + 1) (escaped c ++ rest) = (text? fuel rest).map fun (cs, rest) => (c :: cs, rest) := by
  have hread (cs : List Char) (h : escape? (cs ++ rest) = some (c, rest)) :
      text? (fuel + 1) ('\\' :: (cs ++ rest)) = (text? fuel rest).map fun (cs, rest) => (c :: cs, rest) := by
    rw [text?,if_neg (by decide),if_pos rfl,h,Option.bind_eq_bind,Option.bind_some]
    dsimp only
    cases text? fuel rest <;> rfl
  have hcode {n : Nat} (h : c.toNat = n) : c = Char.ofNat n := by rw [← h,Char.ofNat_toNat]
  rw [escaped]
  by_cases hmark : c = Text.doubleMark
  · rw [if_pos hmark]
    exact hread [c] (by rw [hmark]; rfl)
  by_cases hslash : c = '\\'
  · rw [if_neg hmark,if_pos hslash]
    exact hread ['\\'] (by rw [hslash]; rfl)
  rw [if_neg hmark,if_neg hslash]
  by_cases hline : c = '\n'
  · rw [if_pos hline]
    exact hread ['n'] (by rw [hline]; rfl)
  by_cases hreturn : c = '\r'
  · rw [if_neg hline,if_pos hreturn]
    exact hread ['r'] (by rw [hreturn]; rfl)
  by_cases htab : c = '\t'
  · rw [if_neg hline,if_neg hreturn,if_pos htab]
    exact hread ['t'] (by rw [htab]; rfl)
  rw [if_neg hline,if_neg hreturn,if_neg htab]
  by_cases hback : c.toNat = 8
  · rw [if_pos hback]
    exact hread ['b'] (by rw [hcode hback]; rfl)
  by_cases hform : c.toNat = 12
  · rw [if_neg hback,if_pos hform]
    exact hread ['f'] (by rw [hcode hform]; rfl)
  rw [if_neg hback,if_neg hform]
  by_cases hprintable : 0x20 ≤ c.toNat ∧ c.toNat < 0x7F
  · rw [if_pos hprintable,List.singleton_append,text?,if_neg hmark,if_neg hslash,if_neg (by omega)]
    cases text? fuel rest <;> rfl
  rw [if_neg hprintable]
  by_cases hsmall : c.toNat < 0x10000
  · rw [if_pos hsmall]
    exact hread ('u' :: Text.hex 4 c.toNat) (escape?_small hsmall rest)
  · rw [if_neg hsmall]
    have hlarge := escape?_large (Nat.le_of_not_lt hsmall) rest
    refine hread ('u' :: (Text.hex 4 _ ++ '\\' :: 'u' :: Text.hex 4 _)) ?_
    rw [List.cons_append,List.append_assoc]
    exact hlarge

/-- What is written of a text is read as the text, and what follows it is left. -/
theorem text?_quoted (s rest : List Char) (fuel : Nat) :
    text? (s.length + 1 + fuel) (s.flatMap escaped ++ Text.doubleMark :: rest) = some (s, rest) := by
  induction s with
  | nil =>
    rw [List.length_nil,Nat.zero_add,Nat.add_comm]
    rfl
  | cons c cs ih =>
    have hfuel : (c :: cs).length + 1 + fuel = (cs.length + 1 + fuel) + 1 := by
      rw [List.length_cons]
      omega
    rw [hfuel,List.flatMap_cons,List.append_assoc,text?_escaped,ih]
    rfl

/-- A quoted text is told apart from what follows it. -/
theorem quotedText_inj {s t : String} {rest rest' : List Char} (h : quotedText s ++ rest = quotedText t ++ rest') :
    s = t ∧ rest = rest' := by
  simp only [quotedText,List.cons_append,List.append_assoc,List.nil_append,List.cons.injEq,
    true_and] at h
  have hs := text?_quoted s.toList rest t.toList.length
  have ht := text?_quoted t.toList rest' s.toList.length
  rw [h,show s.toList.length + 1 + t.toList.length = t.toList.length + 1 + s.toList.length by omega,ht] at hs
  obtain ⟨hlist,hrest⟩ := Prod.mk.inj (Option.some.inj hs)
  exact ⟨(String.toList_inj.mp hlist).symm,hrest.symm⟩

/-- Whether a character may be written outside of quotes and brackets. -/
def isPlain (c : Char) : Bool := c.isAlphanum || c == '-' || c == '+' || c == '.'

/-- Whether characters stand outside of quotes and brackets, and there are some. -/
structure Plain (cs : List Char) : Prop where
  plain : ∀ c ∈ cs, isPlain c = true
  some : cs ≠ []

/-- Characters that are written down are looked at one by one. -/
theorem plain_of_all {cs : List Char} (h : cs.all isPlain = true) (hsome : cs ≠ []) : Plain cs :=
  ⟨List.all_eq_true.mp h,hsome⟩

theorem isPlain_digit {c : Char} (h : c.isDigit = true) : isPlain c = true := by simp [isPlain,Char.isAlphanum,h]

theorem plain_append {cs ds : List Char} (hcs : Plain cs) (hds : ∀ d ∈ ds, isPlain d = true) : Plain (cs ++ ds) :=
  ⟨List.forall_mem_append.mpr ⟨hcs.plain,hds⟩,List.append_ne_nil_of_left_ne_nil hcs.some ds⟩

theorem nat_plain (n : Nat) : Plain (toString n).toList := by
  rw [Nat.toString_eq_repr,Nat.toList_repr]
  exact ⟨fun c hc => isPlain_digit (Nat.isDigit_of_mem_toDigits (by decide) (by decide) hc),Nat.toDigits_ne_nil⟩

theorem int_plain (n : Int) : Plain (toString n).toList := by
  cases n with
  | ofNat n => exact nat_plain n
  | negSucc n =>
    have htext : (toString (Int.negSucc n)).toList = '-' :: (toString (n + 1)).toList := String.toList_append
    rw [htext]
    have hsign : Plain ['-'] := plain_of_all rfl (by decide)
    exact plain_append hsign (nat_plain (n + 1)).plain

theorem zeros_plain (n : Nat) : ∀ c ∈ (NumberStyle.zeros n).toList, isPlain c = true := by
  intro c hc
  rw [NumberStyle.zeros,String.toList_ofList] at hc
  rw [(List.mem_replicate.mp hc).2]
  rfl

theorem positional_plain {digits : String} (h : Plain digits.toList) (point : Int) :
    Plain (NumberStyle.document.positional digits point).toList := by
  rw [NumberStyle.positional]
  split
  · simp only [String.toList_append,List.append_assoc]
    refine plain_append (plain_of_all rfl (by decide)) ?_
    exact List.forall_mem_append.mpr ⟨zeros_plain _,h.plain⟩
  · split
    · simp only [String.toList_append,List.append_assoc]
      refine plain_append h ?_
      exact List.forall_mem_append.mpr ⟨zeros_plain _,List.all_eq_true.mp rfl⟩
    · simp only [String.toList_append,String.toList_ofList,List.append_assoc]
      refine ⟨?_,by simp⟩
      simp only [List.forall_mem_append]
      exact ⟨fun c hc => h.plain c (List.mem_of_mem_take hc),List.all_eq_true.mp rfl,fun c hc => h.plain c (List.mem_of_mem_drop hc)⟩

theorem scientific_plain {digits : String} (h : Plain digits.toList) (exponent : Int) :
    Plain (NumberStyle.document.scientific digits exponent).toList := by
  have hdrop : ∀ c ∈ digits.toList.drop 1, isPlain c = true := fun c hc => h.plain c (List.mem_of_mem_drop hc)
  have hfraction : ∀ c ∈ (if (digits.toList.drop 1).isEmpty then (if NumberStyle.document.pointsMantissa then ".0"
      else "") else "." ++ String.ofList (digits.toList.drop 1)).toList, isPlain c = true := by
    split
    · exact List.all_eq_true.mp rfl
    · rw [String.toList_append]
      refine List.forall_mem_append.mpr ⟨List.all_eq_true.mp rfl,?_⟩
      rw [String.toList_ofList]
      exact hdrop
  have hsign : ∀ c ∈ (if exponent < 0 then "-" else "+").toList, isPlain c = true := by
    split <;> exact List.all_eq_true.mp rfl
  simp only [NumberStyle.scientific,String.toList_append,String.toList_ofList]
  refine ⟨?_,by simp⟩
  simp only [List.forall_mem_append]
  exact ⟨⟨⟨⟨⟨fun c hc => h.plain c (List.mem_of_mem_take hc),hfraction⟩,List.all_eq_true.mp rfl⟩,hsign⟩,zeros_plain _⟩,
    (nat_plain _).plain⟩

theorem float_plain (x : Binary64) : Plain (NumberStyle.document.render x).toList := by
  have hsigned (s : Bool) {text : String} (h : Plain text.toList) : Plain ((if s then "-" else "") ++ text).toList := by
    cases s with
    | true =>
      rw [String.toList_append]
      exact plain_append (plain_of_all rfl (by decide)) h.plain
    | false =>
      rw [String.toList_append]
      exact h
  cases x with
  | nan => exact plain_of_all rfl (by decide)
  | infinite s => exact hsigned s (plain_of_all rfl (by decide))
  | finite s m e =>
    refine hsigned s ?_
    split
    · exact positional_plain (plain_of_all rfl (by decide)) 1
    · rw [NumberStyle.layOut]
      split
      · exact positional_plain (nat_plain _) _
      · exact scientific_plain (nat_plain _) _

/-- Whether the text after a document ends it: it is empty or starts with a mark between parts. -/
def Ends (rest : List Char) : Prop := ∀ c ∈ rest.head?, c = ',' ∨ c = ']' ∨ c = '\x7d'

theorem ends_cons {c : Char} (h : c = ',' ∨ c = ']' ∨ c = '\x7d') (rest : List Char) : Ends (c :: rest) := by
  intro d hd
  cases hd
  exact h

theorem ends_not_plain {rest : List Char} (h : Ends rest) : ∀ c ∈ rest.head?, isPlain c = false := by
  intro c hc
  rcases h c hc with rfl | rfl | rfl <;> rfl

/-- Plain characters are told apart from what follows them. -/
theorem plain_inj {cs ds rest rest' : List Char} (hcs : ∀ c ∈ cs, isPlain c = true) (hds : ∀ d ∈ ds, isPlain d = true)
    (hrest : ∀ c ∈ rest.head?, isPlain c = false) (hrest' : ∀ c ∈ rest'.head?, isPlain c = false)
    (h : cs ++ rest = ds ++ rest') : cs = ds ∧ rest = rest' := by
  have htake {xs tail : List Char} (hxs : ∀ c ∈ xs, isPlain c = true) (htail : ∀ c ∈ tail.head?, isPlain c = false) :
      (xs ++ tail).takeWhile isPlain = xs := by
    rw [List.takeWhile_append_of_pos hxs]
    cases tail with
    | nil => simp
    | cons c cs => simp [htail c rfl]
  have hsame : cs = ds := by
    rw [← htake hcs hrest,h,htake hds hrest']
  subst hsame
  exact ⟨rfl,List.append_cancel_left h⟩

/-- Whether the texts of a kind are told apart from what follows them, where one of them stands first. -/
def Delimited {α : Type} (f : α → List Char) (a : α) : Prop :=
  ∀ b rest rest', Ends rest → Ends rest' → f a ++ rest = f b ++ rest' → f a = f b ∧ rest = rest'

/-- Parts between brackets, set apart by commas. -/
def enclosed (opening closing : Char) : List (List Char) → List Char
  | [] => [opening, closing]
  | part :: parts => opening :: (part ++ parts.flatMap (',' :: ·) ++ [closing])

theorem bracketed_compact (depth : Nat) (opening closing : Char) (parts : List (List Char)) :
    bracketed .compact depth opening closing parts = enclosed opening closing parts := by
  have hjoin (part : List Char) (parts : List (List Char)) :
      List.intercalate [','] (part :: parts) = part ++ parts.flatMap (',' :: ·) := by
    induction parts generalizing part with
    | nil => simp [List.intercalate]
    | cons next rest ih =>
      rw [List.flatMap_cons,List.cons_append,← ih next]
      rfl
  cases parts with
  | nil => rfl
  | cons part parts => exact congrArg (fun cs => opening :: cs ++ [closing]) (hjoin part parts)

section Enclosed

variable {α : Type} {f : α → List Char} {closing : Char}

theorem parts_ends (hclosing : closing = ']' ∨ closing = '\x7d') (xs : List α) (tail : List Char) :
    Ends ((xs.map f).flatMap (',' :: ·) ++ closing :: tail) := by
  cases xs with
  | nil => exact ends_cons (.inr hclosing) tail
  | cons x xs => exact ends_cons (.inl rfl) _

theorem parts_inj (hclosing : closing = ']' ∨ closing = '\x7d') {as bs : List α} (has : ∀ a ∈ as, Delimited f a)
    {rest rest' : List Char} (h : (as.map f).flatMap (',' :: ·) ++ closing :: rest =
      (bs.map f).flatMap (',' :: ·) ++ closing :: rest') : as.map f = bs.map f ∧ rest = rest' := by
  have hcomma : closing ≠ ',' := by rcases hclosing with rfl | rfl <;> decide
  induction as generalizing bs with
  | nil =>
    cases bs with
    | nil => exact ⟨rfl,(List.cons.inj h).2⟩
    | cons b bs => exact absurd (List.cons.inj h).1 hcomma
  | cons a as ih =>
    cases bs with
    | nil => exact absurd (List.cons.inj h).1.symm hcomma
    | cons b bs =>
      simp only [List.map_cons,List.flatMap_cons,List.append_assoc,List.cons_append,List.cons.injEq,true_and] at h
      obtain ⟨hfirst,hothers⟩ := has a List.mem_cons_self b _ _ (parts_ends hclosing as rest)
        (parts_ends hclosing bs rest') h
      obtain ⟨hmaps,hrest⟩ := ih (fun x hx => has x (List.mem_cons_of_mem a hx)) hothers
      exact ⟨by rw [List.map_cons,List.map_cons,hfirst,hmaps],hrest⟩

/-- Brackets around parts that are told apart are told apart from what follows them. -/
theorem enclosed_inj {opening : Char} (hclosing : closing = ']' ∨ closing = '\x7d')
    (hhead : ∀ b, ∃ c cs, f b = c :: cs ∧ c ≠ closing) {as bs : List α} (has : ∀ a ∈ as, Delimited f a)
    {rest rest' : List Char} (h : enclosed opening closing (as.map f) ++ rest = enclosed opening closing (bs.map f) ++ rest') :
    as.map f = bs.map f ∧ rest = rest' := by
  cases as with
  | nil =>
    cases bs with
    | nil => exact ⟨rfl,List.append_cancel_left h⟩
    | cons b bs =>
      obtain ⟨c,cs,hb,hne⟩ := hhead b
      simp [enclosed,hb] at h
      exact absurd h.1.symm hne
  | cons a as =>
    cases bs with
    | nil =>
      obtain ⟨c,cs,ha,hne⟩ := hhead a
      simp [enclosed,ha] at h
      exact absurd h.1 hne
    | cons b bs =>
      simp only [enclosed,List.map_cons,List.append_assoc,List.cons_append,List.cons.injEq,true_and] at h
      obtain ⟨hfirst,hothers⟩ := has a List.mem_cons_self b _ _ (parts_ends hclosing as rest)
        (parts_ends hclosing bs rest') h
      obtain ⟨hmaps,hrest⟩ := parts_inj hclosing (fun x hx => has x (List.mem_cons_of_mem a hx)) hothers
      exact ⟨by rw [List.map_cons,List.map_cons,hfirst,hmaps],hrest⟩

end Enclosed

/-- The characters of a document that has no quotes and no brackets. -/
def plainText? : Json → Option (List Char)
  | null => some "null".toList
  | bool b => some (if b then "true" else "false").toList
  | int n => some (toString n).toList
  | float x => some (NumberStyle.document.render x).toList
  | str _ | array _ | object _ => none

theorem plainText?_plain {x : Json} {cs : List Char} (h : x.plainText? = some cs) : Plain cs := by
  cases x with
  | null => cases h; exact plain_of_all rfl (by decide)
  | bool b => cases h; cases b <;> exact plain_of_all rfl (by decide)
  | int n => cases h; exact int_plain n
  | float x => cases h; exact float_plain x
  | str _ | array _ | object _ => cases h

theorem induct {motive : Json → Prop} (plain : ∀ x cs, x.plainText? = some cs → motive x)
    (text : ∀ s, motive (str s)) (items : ∀ xs, (∀ x ∈ xs, motive x) → motive (array xs))
    (members : ∀ ms : List (String × Json), (∀ m ∈ ms, motive m.2) → motive (object ms)) : ∀ x, motive x
  | null => plain null _ rfl
  | bool b => plain (bool b) _ rfl
  | int n => plain (int n) _ rfl
  | float x => plain (float x) _ rfl
  | str s => text s
  | array xs => items xs fun x _inside => induct plain text items members x
  | object ms => members ms fun m _inside => induct plain text items members m.2
termination_by x => sizeOf x
decreasing_by
  · have hsize := List.sizeOf_lt_of_mem _inside
    simp only [array.sizeOf_spec]
    omega
  · have hsize := List.sizeOf_lt_of_mem _inside
    have hpair : sizeOf m = 1 + sizeOf m.1 + sizeOf m.2 := rfl
    simp only [object.sizeOf_spec]
    omega

/-- The text of a document on one line without blanks. -/
def text (x : Json) : List Char := write .compact 0 x

/-- The text of a member of an object. -/
def memberText (m : String × Json) : List Char := quotedText m.1 ++ ':' :: m.2.text

theorem writeItems_eq (layout : Layout) (depth : Nat) (xs : List Json) :
    writeItems layout depth xs = xs.map (write layout depth) := by
  induction xs with
  | nil => rfl
  | cons x xs ih => rw [writeItems,ih,List.map_cons]

theorem writeMembers_eq (layout : Layout) (depth : Nat) (ms : List (String × Json)) :
    writeMembers layout depth ms =
      ms.map fun m => quotedText m.1 ++ memberMark layout ++ write layout depth m.2 := by
  induction ms with
  | nil => rfl
  | cons m ms ih => rw [writeMembers,ih,List.map_cons]

/-- On one line the number of brackets around a document does not matter. -/
theorem write_compact (x : Json) (depth : Nat) : write .compact depth x = x.text := by
  induction x using induct generalizing depth with
  | plain x cs hx => cases x <;> first | rfl | cases hx
  | text s => rfl
  | items xs ih =>
    simp only [text,write,writeItems_eq,bracketed_compact]
    refine congrArg (enclosed '[' ']') (List.map_congr_left fun x hx => ?_)
    rw [ih x hx,ih x hx]
  | members ms ih =>
    simp only [text,write,writeMembers_eq,bracketed_compact]
    refine congrArg (enclosed '\x7b' '\x7d') (List.map_congr_left fun m hm => ?_)
    rw [ih m hm,ih m hm]

/-- A document without parts is written the same way in every layout. -/
theorem write_plain {x : Json} {cs : List Char} (h : x.plainText? = some cs) (layout : Layout) (depth : Nat) :
    write layout depth x = cs := by
  cases x <;> cases h <;> rfl

theorem text_plain {x : Json} {cs : List Char} (h : x.plainText? = some cs) : x.text = cs := write_plain h _ _

theorem text_array (xs : List Json) : (array xs).text = enclosed '[' ']' (xs.map text) := by
  rw [text,write,writeItems_eq,bracketed_compact]
  exact congrArg (enclosed '[' ']') (List.map_congr_left fun x _ => write_compact x 1)

theorem text_object (ms : List (String × Json)) : (object ms).text = enclosed '\x7b' '\x7d' (ms.map memberText) := by
  rw [text,write,writeMembers_eq,bracketed_compact]
  refine congrArg (enclosed '\x7b' '\x7d') (List.map_congr_left fun m _ => ?_)
  rw [write_compact,List.append_assoc]
  rfl

/-- Whether a character starts the text of a document of its kind. -/
def Starts : Json → Char → Prop
  | str _, c => c = Text.doubleMark
  | array _, c => c = '['
  | object _, c => c = '\x7b'
  | null, c | bool _, c | int _, c | float _, c => isPlain c = true

theorem bracketed_head (layout : Layout) (depth : Nat) (opening closing : Char) (parts : List (List Char)) :
    ∃ cs, bracketed layout depth opening closing parts = opening :: cs := by
  cases parts <;> cases layout <;> exact ⟨_,rfl⟩

theorem write_head (layout : Layout) (depth : Nat) (x : Json) : ∃ c cs, write layout depth x = c :: cs ∧ x.Starts c := by
  have hplain {x : Json} {cs : List Char} (h : x.plainText? = some cs) :
      ∃ c cs, write layout depth x = c :: cs ∧ isPlain c = true := by
    obtain ⟨c,rest,rfl⟩ := List.exists_cons_of_ne_nil (plainText?_plain h).some
    exact ⟨c,rest,write_plain h layout depth,(plainText?_plain h).plain c List.mem_cons_self⟩
  cases x with
  | null => exact hplain rfl
  | bool b => exact hplain rfl
  | int n => exact hplain rfl
  | float x => exact hplain rfl
  | str s => exact ⟨Text.doubleMark,_,rfl,rfl⟩
  | array xs =>
    obtain ⟨cs,hcs⟩ := bracketed_head layout depth '[' ']' (writeItems layout (depth + 1) xs)
    exact ⟨'[',cs,hcs,rfl⟩
  | object ms =>
    obtain ⟨cs,hcs⟩ := bracketed_head layout depth '\x7b' '\x7d' (writeMembers layout (depth + 1) ms)
    exact ⟨'\x7b',cs,hcs,rfl⟩

theorem text_head (x : Json) : ∃ c cs, x.text = c :: cs ∧ x.Starts c := write_head .compact 0 x

theorem starts_of_text {x : Json} {c : Char} {cs : List Char} (h : x.text = c :: cs) : x.Starts c := by
  obtain ⟨d,ds,hx,hstarts⟩ := text_head x
  obtain rfl := (List.cons.inj (hx.symm.trans h)).1
  exact hstarts

theorem write_ne_bracket (layout : Layout) (depth : Nat) (x : Json) :
    ∃ c cs, write layout depth x = c :: cs ∧ c ≠ ']' := by
  obtain ⟨c,cs,hx,hstarts⟩ := write_head layout depth x
  refine ⟨c,cs,hx,?_⟩
  rintro rfl
  cases x <;> cases hstarts

theorem head_ne_bracket (x : Json) : ∃ c cs, x.text = c :: cs ∧ c ≠ ']' := write_ne_bracket .compact 0 x

theorem head_of_append {x y : Json} {rest rest' : List Char} (h : x.text ++ rest = y.text ++ rest') :
    ∃ c cs ds, x.text = c :: cs ∧ y.text = c :: ds := by
  obtain ⟨c,cs,hx,_⟩ := text_head x
  obtain ⟨d,ds,hy,_⟩ := text_head y
  rw [hx,hy,List.cons_append,List.cons_append] at h
  have hhead := (List.cons.inj h).1
  exact ⟨c,cs,ds,hx,by rw [hy,hhead]⟩

theorem plain_of_head {y : Json} {c : Char} {cs : List Char} (h : y.text = c :: cs) (hc : isPlain c = true) :
    ∃ ds, y.plainText? = some ds := by
  have hstarts := starts_of_text h
  cases y <;> first | exact ⟨_,rfl⟩ | (cases hstarts; cases hc)

theorem str_of_head {y : Json} {cs : List Char} (h : y.text = Text.doubleMark :: cs) : ∃ s, y = str s := by
  have hstarts := starts_of_text h
  cases y <;> first | exact ⟨_,rfl⟩ | cases hstarts

theorem array_of_head {y : Json} {cs : List Char} (h : y.text = '[' :: cs) : ∃ ys, y = array ys := by
  have hstarts := starts_of_text h
  cases y <;> first | exact ⟨_,rfl⟩ | cases hstarts

theorem object_of_head {y : Json} {cs : List Char} (h : y.text = '\x7b' :: cs) : ∃ ms, y = object ms := by
  have hstarts := starts_of_text h
  cases y <;> first | exact ⟨_,rfl⟩ | cases hstarts

theorem member_delimited {m : String × Json} (h : Delimited text m.2) : Delimited memberText m := by
  intro n rest rest' hrest hrest' heq
  simp only [memberText,List.append_assoc,List.cons_append] at heq ⊢
  obtain ⟨hname,heq⟩ := quotedText_inj heq
  obtain ⟨htext,hrest⟩ := h n.2 rest rest' hrest hrest' (List.cons.inj heq).2
  exact ⟨by rw [hname,htext],hrest⟩

/-- Texts of documents are told apart from what follows them. -/
theorem text_delimited (x : Json) : Delimited text x := by
  induction x using induct with
  | plain x cs hx =>
    intro y rest rest' hrest hrest' h
    obtain ⟨c,xs,ys,hxs,hys⟩ := head_of_append h
    have hc : isPlain c = true := (plainText?_plain hx).plain c (by rw [← text_plain hx,hxs]; exact List.mem_cons_self)
    obtain ⟨ds,hy⟩ := plain_of_head hys hc
    rw [text_plain hx,text_plain hy] at h ⊢
    exact plain_inj (plainText?_plain hx).plain (plainText?_plain hy).plain (ends_not_plain hrest)
      (ends_not_plain hrest') h
  | text s =>
    intro y rest rest' _ _ h
    obtain ⟨c,xs,ys,hxs,hys⟩ := head_of_append h
    obtain rfl : c = Text.doubleMark := starts_of_text hxs
    obtain ⟨t,rfl⟩ := str_of_head hys
    obtain ⟨rfl,hrest⟩ := quotedText_inj h
    exact ⟨rfl,hrest⟩
  | items xs ih =>
    intro y rest rest' _ _ h
    obtain ⟨c,cs,ds,hcs,hds⟩ := head_of_append h
    obtain rfl : c = '[' := starts_of_text hcs
    obtain ⟨ys,rfl⟩ := array_of_head hds
    rw [text_array,text_array] at h ⊢
    obtain ⟨hmaps,hrest⟩ := enclosed_inj (.inl rfl) head_ne_bracket ih h
    exact ⟨by rw [hmaps],hrest⟩
  | members ms ih =>
    intro y rest rest' _ _ h
    obtain ⟨c,cs,ds,hcs,hds⟩ := head_of_append h
    obtain rfl : c = '\x7b' := starts_of_text hcs
    obtain ⟨ns,rfl⟩ := object_of_head hds
    rw [text_object,text_object] at h ⊢
    have hhead (m : String × Json) : ∃ c cs, memberText m = c :: cs ∧ c ≠ '\x7d' :=
      ⟨Text.doubleMark,_,rfl,by decide⟩
    obtain ⟨hmaps,hrest⟩ := enclosed_inj (.inr rfl) hhead (fun m hm => member_delimited (ih m hm)) h
    exact ⟨by rw [hmaps],hrest⟩

/-- The text of an array determines the texts of its items. -/
theorem items_of_text {xs ys : List Json} (h : (array xs).text = (array ys).text) :
    List.Forall₂ (fun x y => x.text = y.text) xs ys := by
  rw [text_array,text_array] at h
  have hnil := congrArg (· ++ []) h
  exact forall₂_of_map_eq (enclosed_inj (.inl rfl) head_ne_bracket (fun x _ => text_delimited x) hnil).1

/-- The text of an object determines the names of its members and their texts. -/
theorem members_of_text {ms ns : List (String × Json)} (h : (object ms).text = (object ns).text) :
    List.Forall₂ (fun m n => m.1 = n.1 ∧ m.2.text = n.2.text) ms ns := by
  have hhead (m : String × Json) : ∃ c cs, memberText m = c :: cs ∧ c ≠ '\x7d' :=
    ⟨Text.doubleMark,_,rfl,by decide⟩
  rw [text_object,text_object] at h
  have hnil := congrArg (· ++ []) h
  have hmaps := (enclosed_inj (.inr rfl) hhead (fun m _ => member_delimited (text_delimited m.2)) hnil).1
  refine (forall₂_of_map_eq hmaps).imp fun m n heq => ?_
  obtain ⟨hname,heq⟩ := quotedText_inj heq
  exact ⟨hname,(List.cons.inj heq).2⟩

end Json

end Trischema
