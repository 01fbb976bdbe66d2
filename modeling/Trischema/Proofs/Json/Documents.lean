import Mathlib.Data.List.Perm.Subperm
import Trischema.Proofs.Json.Reading
import Trischema.Proofs.Json.Values
import Trischema.Proofs.Value.Equality
import Trischema.Table.Encoding

/-!
Which values a document gives back: those that are made of nothing but what documents hold. All else comes back as
a text or a sequence of another kind, which is not equal to it.
-/

namespace Trischema

mutual

/-- Whether a value is as values are: its numbers are written with the only mantissa and exponent that they have, and
no two keys of a dictionary are one. -/
def Value.IsSound : Value → Prop
  | .float x => x.IsCanonical
  | .list xs | .tuple xs => AllSound xs
  | .mapping es => EntriesSound es ∧ es.Pairwise fun e f => e.1.sameKey f.1 = false
  | _ => True

def AllSound : List Value → Prop
  | [] => True
  | x :: xs => x.IsSound ∧ AllSound xs

def EntriesSound : List (Value × Value) → Prop
  | [] => True
  | (_, v) :: es => v.IsSound ∧ EntriesSound es

end

mutual

/-- Whether a document of a value stands for an equal value: it is made of numbers, texts, lists and dictionaries under
texts, and members of constant sets and identifiers that are equal to a number or a text. -/
def Value.isDocument : Value → Bool
  | .null | .bool _ | .int _ | .str _ | .identifier _ => true
  | .float x => !x.isNan
  | .member m => (Value.member m).text?.isSome || (Value.member m).number?.isSome
  | .list xs => allDocuments xs
  | .mapping es => entriesDocuments es
  | _ => false

def allDocuments : List Value → Bool
  | [] => true
  | x :: xs => x.isDocument && allDocuments xs

def entriesDocuments : List (Value × Value) → Bool
  | [] => true
  | (k, v) :: es => k.text?.isSome && v.isDocument && entriesDocuments es

end

theorem entriesDocuments_iff {es : List (Value × Value)} :
    entriesDocuments es = true ↔ ∀ e ∈ es, e.1.text?.isSome = true ∧ e.2.isDocument = true := by
  induction es with
  | nil => simp [entriesDocuments]
  | cons e es ih => simp [entriesDocuments,ih]

namespace Json

theorem setEntry_keys (es : List (Value × Value)) (key v : Value) : (Value.setEntry es key v).map (·.1) = es.map (·.1) ∨
    (∀ e ∈ es, e.1.sameKey key = false) ∧ Value.setEntry es key v = es ++ [(key, v)] := by
  rw [Value.setEntry]
  split
  · refine .inl ?_
    rw [List.map_map]
    refine List.map_congr_left fun e _ => ?_
    change (if e.1.sameKey key then (e.1, v) else (e.1, e.2)).1 = e.1
    split <;> rfl
  · rename_i hnone
    exact .inr ⟨fun e he => Bool.eq_false_iff.mpr fun hsame => hnone (List.any_eq_true.mpr ⟨e,he,hsame⟩),rfl⟩

/-- The entries that the members of a document stand for have different texts for keys. -/
theorem toEntries_keys (seen : List (Value × Value)) (ms : List (String × Json))
    (hseen : ∃ names : List String, names.Nodup ∧ seen.map (·.1) = names.map .str) :
    ∃ names : List String, names.Nodup ∧ (toEntries seen ms).map (·.1) = names.map .str := by
  induction ms generalizing seen with
  | nil => exact hseen
  | cons m ms ih =>
    obtain ⟨names,hnames,hkeys⟩ := hseen
    rw [toEntries]
    apply ih
    rcases setEntry_keys seen (.str m.1) m.2.toValue with hsame | ⟨hnew,hset⟩
    · exact ⟨names,hnames,hsame.trans hkeys⟩
    · refine ⟨names ++ [m.1],?_,by rw [hset,List.map_append,hkeys,List.map_append]; rfl⟩
      refine List.nodup_append.mpr ⟨hnames,List.nodup_singleton _,fun name hname other hother heq => ?_⟩
      obtain ⟨e,he,hkey⟩ := List.mem_map.mp (hkeys ▸ List.mem_map_of_mem hname)
      have hfalse := hnew e he
      rw [hkey,heq,List.mem_singleton.mp hother,(Value.sameKey_str _ _).mpr rfl] at hfalse
      cases hfalse

/-- Members of different names stand for one entry each. -/
theorem toEntries_distinct (seen : List (Value × Value)) (ms : List (String × Json)) (hms : (ms.map (·.1)).Nodup)
    (hseen : ∀ e ∈ seen, ∃ s, e.1 = .str s ∧ s ∉ ms.map (·.1)) :
    toEntries seen ms = seen ++ ms.map fun m => (.str m.1, m.2.toValue) := by
  induction ms generalizing seen with
  | nil => exact (List.append_nil seen).symm
  | cons m ms ih =>
    rw [List.map_cons,List.nodup_cons] at hms
    have hset : Value.setEntry seen (.str m.1) m.2.toValue = seen ++ [(.str m.1, m.2.toValue)] := by
      rw [Value.setEntry,if_neg]
      intro hany
      obtain ⟨e,he,hsame⟩ := List.any_eq_true.mp hany
      obtain ⟨s,hs,hnew⟩ := hseen e he
      change e.1.sameKey (.str m.1) = true at hsame
      rw [hs,Value.sameKey_str] at hsame
      exact hnew (hsame ▸ List.mem_cons_self)
    rw [toEntries,hset,ih _ hms.2,List.map_cons,List.append_assoc]
    · rfl
    · intro e he
      rcases List.mem_append.mp he with he | he
      · obtain ⟨s,hs,hnew⟩ := hseen e he
        exact ⟨s,hs,fun hmem => hnew (List.mem_cons_of_mem _ hmem)⟩
      · rw [List.mem_singleton.mp he]
        exact ⟨m.1,rfl,hms.1⟩

end Json

namespace Value

/-- What is equal to a text: what counts as the text, and an identifier that has it. -/
theorem same_str_iff {s : String} {v : Value} :
    (Value.str s).same v = true ↔ v.text? = some s ∨ v = .identifier s := by
  change (Value.str s).sameLeaf v = true ↔ _
  unfold sameLeaf
  cases hn : v.number? with
  | some n =>
    rw [text?_of_number? hn]
    refine iff_of_false Bool.false_ne_true ?_
    rintro (h | rfl)
    · cases h
    · cases hn
  | none =>
    cases ht : v.text? with
    | some t =>
      change (s == t) = true ↔ _
      rw [beq_iff_eq,Option.some.injEq,eq_comm]
      refine (or_iff_left ?_).symm
      rintro rfl
      cases ht
    | none =>
      cases v with
      | identifier t =>
        change (s == t) = true ↔ _
        rw [beq_iff_eq]
        constructor
        · rintro rfl
          exact .inr rfl
        · rintro (h | h) <;> cases h
          rfl
      | _ => exact iff_of_false Bool.false_ne_true (by rintro (h | h) <;> cases h)

theorem same_of_text? {v w : Value} {s : String} (hv : v.text? = some s) (hw : w.text? = some s) :
    v.same w = true := by
  have hleaf : v.sameLeaf w = true := by
    simp only [sameLeaf,number?_of_text? hv,number?_of_text? hw,hv,hw,beq_self_eq_true]
  cases v with
  | str t => exact hleaf
  | member m => exact hleaf
  | _ => cases hv

/-- All that is equal to a text is filed with it. -/
theorem sameKey_str_iff {s : String} {v : Value} : (Value.str s).sameKey v = true ↔ v.word? = some s := by
  rw [sameKey,Bool.and_eq_true,same_str_iff,word?_iff]
  refine and_iff_left_of_imp fun h => ?_
  have hfiling : v.filing = filedBytes (packed s) := by
    rcases h with htext | rfl
    · exact filing_of_text? htext
    · rfl
  rw [filedAlike,hfiling]
  exact samePlace_filedBytes (packed s)

theorem sameKey_of_text? {v w : Value} {s : String} (hv : v.text? = some s) (hw : w.text? = some s) :
    v.sameKey w = true := by
  rw [sameKey,same_of_text? hv hw,filedAlike,filing_of_text? hv,filing_of_text? hw,samePlace_filedBytes]
  rfl

end Value

namespace Json

variable {es es' : List (Value × Value)} {ms : List (String × Json)}

theorem memberName?_text {v : Value} {s name : String} (htext : v.text? = some s) (hname : memberName? v = some name) :
    name = s := by
  cases v with
  | str t =>
    cases htext
    exact (Option.some.inj hname).symm
  | member m =>
    simp only [memberName?,htext,Option.orElse_eq_orElse,Option.orElse_eq_or,Option.some_or,Option.some.injEq] at hname
    exact hname.symm
  | _ => cases htext

theorem entries_texts (hperm : es'.Perm es) (hdistinct : es.Pairwise fun e f => e.1.sameKey f.1 = false)
    (hms : List.Forall₂ (fun e m => memberName? e.1 = some m.1 ∧ ofValue .asText e.2 = .ok m.2) es' ms)
    (hsame : ∀ e ∈ es, ∀ x, ofValue .asText e.2 = .ok x → x.toValue.same e.2 = e.2.isDocument)
    (htexts : ∀ e ∈ es, e.1.text?.isSome = true) :
    (Value.mapping (toEntries [] ms)).same (.mapping es) = entriesDocuments es := by
  have hkeys : (es.map (·.1.text?)).Nodup := by
    refine List.pairwise_map.mpr (hdistinct.imp_of_mem fun {e f} he _ hne heq => ?_)
    obtain ⟨s,hs⟩ := Option.isSome_iff_exists.mp (htexts e he)
    rw [Value.sameKey_of_text? hs (heq ▸ hs)] at hne
    cases hne
  have hnamed : List.Forall₂ (fun e m => e.1.text? = some m.1 ∧ e ∈ es ∧ ofValue .asText e.2 = .ok m.2) es' ms := by
    refine ((List.forall₂_and_left _ _).mpr ⟨fun e he => hperm.mem_iff.mp he,hms⟩).imp fun e m ⟨he,hname,hvalue⟩ => ?_
    obtain ⟨s,hs⟩ := Option.isSome_iff_exists.mp (htexts e he)
    exact ⟨by rw [hs,memberName?_text hs hname],he,hvalue⟩
  have hnames : (ms.map fun m => some m.1).Nodup := by
    rw [← map_eq_of_forall₂ hnamed fun _ _ h => h.1]
    exact (hperm.map _).nodup_iff.mpr hkeys
  have hentries := toEntries_distinct [] ms (List.Nodup.of_map some (by rwa [List.map_map])) nofun
  rw [List.nil_append] at hentries
  have hlength : (toEntries [] ms).length = es.length := by
    rw [hentries,List.length_map,← hms.length_eq,hperm.length_eq]
  change ((toEntries [] ms).length == es.length && entriesAmong (toEntries [] ms) es) = entriesDocuments es
  rw [beq_iff_eq.mpr hlength,Bool.true_and,Bool.eq_iff_iff,entriesAmong_iff,entriesDocuments_iff,hentries]
  constructor
  · intro hamong e he
    obtain ⟨m,hm,hname,_,hvalue⟩ := exists_right_of_forall₂ hnamed (hperm.mem_iff.mpr he)
    obtain ⟨f,hf,hkey,hfound⟩ := hamong _ (List.mem_map_of_mem hm)
    have hftext : f.1.text? = some m.1 := by
      rcases Value.word?_iff.mp (Value.sameKey_str_iff.mp hkey) with htext | hidentifier
      · exact htext
      · have htext := htexts f hf
        rw [hidentifier] at htext
        cases htext
    obtain rfl : f = e := List.inj_on_of_nodup_map hkeys hf he (hftext.trans hname.symm)
    exact ⟨htexts f hf,by rw [← hsame f hf _ hvalue]; exact hfound⟩
  · intro hall f hf
    obtain ⟨m,hm,rfl⟩ := List.mem_map.mp hf
    obtain ⟨e,_,hname,he,hvalue⟩ := exists_left_of_forall₂ hnamed hm
    exact ⟨e,he,Value.sameKey_str_iff.mpr (Value.word?_iff.mpr (.inl hname)),by rw [hsame e he _ hvalue]; exact (hall e he).2⟩

/-- A dictionary with a key that is no text is not given back. -/
theorem entries_other (hperm : es'.Perm es)
    (hms : List.Forall₂ (fun e m => memberName? e.1 = some m.1 ∧ ofValue .asText e.2 = .ok m.2) es' ms)
    (h : (Value.mapping (toEntries [] ms)).same (.mapping es) = true) : ∀ e ∈ es, e.1.text?.isSome = true := by
  obtain ⟨names,hnames,hkeys⟩ := toEntries_keys [] ms ⟨[],List.nodup_nil,rfl⟩
  obtain ⟨hlength,hamong⟩ := Bool.and_eq_true_iff.mp h
  rw [entriesAmong_iff] at hamong
  have hsubset : names.map some ⊆ es.map (·.1.text?) := by
    intro k hk
    obtain ⟨name,hname,rfl⟩ := List.mem_map.mp hk
    obtain ⟨f,hf,hfkey⟩ := List.mem_map.mp (hkeys ▸ List.mem_map_of_mem hname)
    obtain ⟨e,he,hsame,_⟩ := hamong f hf
    rw [hfkey,Value.sameKey_str_iff,Value.word?_iff] at hsame
    rcases hsame with htext | hidentifier
    · exact List.mem_map.mpr ⟨e,he,htext⟩
    · obtain ⟨m,_,hm,_⟩ := exists_right_of_forall₂ hms (hperm.mem_iff.mpr he)
      rw [hidentifier] at hm
      cases hm
  have hcount : (es.map (·.1.text?)).length ≤ (names.map some).length := by
    have hentries := congrArg List.length hkeys
    simp only [List.length_map,beq_iff_eq] at hentries hlength ⊢
    omega
  -- as many different texts as keys, and all of them among the keys: there is no other key
  have hall := ((hnames.map (Option.some_injective _)).subperm hsubset).perm_of_length_le hcount
  intro e he
  obtain ⟨name,_,hname⟩ := List.mem_map.mp (hall.mem_iff.mpr (List.mem_map_of_mem he))
  rw [← hname]
  rfl

end Json

mutual

/-- Whether a document stands for a value that is equal to the one that it was made of. -/
theorem Value.toValue_same {v : Value} {x : Json} (hv : v.IsSound) (hx : Json.ofValue .asText v = .ok x) :
    x.toValue.same v = v.isDocument := by
  cases v with
  | null => cases hx; rfl
  | bool b => cases hx; cases b <;> rfl
  | int n => cases hx; exact Number.same_int n
  | str s => cases hx; exact (Value.same_str s s).mpr rfl
  | identifier s => cases hx; exact (Value.same_str s s).mpr rfl
  | float y =>
    cases hx
    cases hnan : y.isNan with
    | true => cases y <;> first | rfl | cases hnan
    | false =>
      change Number.same (.float y) (.float y) = !y.isNan
      rw [hnan]
      exact Number.same_self (Binary64.compare?_self hnan) rfl
  | member m =>
    obtain ⟨cls,mixin,name,value⟩ := m
    cases mixin with
    | plain => cases hx; rfl
    | integer =>
      cases value with
      | int n => cases hx; exact Number.same_int n
      | _ => cases hx; rfl
    | text =>
      cases value with
      | str s => cases hx; exact (Value.same_str s s).mpr rfl
      | _ => cases hx; rfl
  | list vs =>
    obtain ⟨xs,hxs,hx⟩ := bind_eq_ok.mp hx
    cases pure_eq_ok.mp hx
    exact sameAll_toValues hv (Json.ofValues_eq_ok.mp hxs)
  | tuple vs =>
    obtain ⟨xs,hxs,hx⟩ := bind_eq_ok.mp hx
    cases pure_eq_ok.mp hx
    rfl
  | mapping es =>
    obtain ⟨es',ms,hperm,rfl,hms⟩ := Json.ofValue_mapping hx
    have hsame := entry_toValue_same hv.1
    by_cases htexts : ∀ e ∈ es, e.1.text?.isSome = true
    · exact Json.entries_texts hperm hv.2 hms hsame htexts
    · rw [Bool.eq_iff_iff]
      refine iff_of_false (mt (Json.entries_other hperm hms) htexts) fun h => htexts fun e he => ?_
      exact (entriesDocuments_iff.mp h e he).1
  | _ => cases hx; rfl

theorem sameAll_toValues {vs : List Value} {xs : List Json} (hvs : AllSound vs)
    (hxs : List.Forall₂ (fun v x => Json.ofValue .asText v = .ok x) vs xs) :
    sameAll (Json.toValues xs) vs = allDocuments vs := by
  cases hxs with
  | nil => rfl
  | cons hx hxs =>
    obtain ⟨hv,hvs⟩ := hvs
    rw [Json.toValues,sameAll,allDocuments,Value.toValue_same hv hx,sameAll_toValues hvs hxs]

theorem entry_toValue_same {es : List (Value × Value)} (hes : EntriesSound es) :
    ∀ e ∈ es, ∀ x, Json.ofValue .asText e.2 = .ok x → x.toValue.same e.2 = e.2.isDocument := by
  cases es with
  | nil => exact fun _ h => absurd h List.not_mem_nil
  | cons e es =>
    obtain ⟨hv,hes⟩ := hes
    exact List.forall_mem_cons.mpr ⟨fun _ => Value.toValue_same hv,entry_toValue_same hes⟩

end

mutual

/-- A value that is as values are has a document that is read back as it was written. -/
theorem Value.exact_document {v : Value} {x : Json} (hv : v.IsSound) (hx : Json.ofValue .asText v = .ok x) :
    x.IsExact := by
  cases v with
  | null => cases hx; exact .null
  | bool b => cases hx; exact .bool b
  | int n => cases hx; exact .int n
  | float y => cases hx; exact .float y hv
  | str s | identifier s => cases hx; exact .str s
  | list vs | tuple vs =>
    obtain ⟨xs,hxs,hx⟩ := bind_eq_ok.mp hx
    cases pure_eq_ok.mp hx
    exact .array xs (exact_documents hv (Json.ofValues_eq_ok.mp hxs))
  | mapping es =>
    obtain ⟨es',ms,hperm,rfl,hms⟩ := Json.ofValue_mapping hx
    refine .object ms fun m hm => ?_
    obtain ⟨e,he,_,hvalue⟩ := exists_left_of_forall₂ hms hm
    exact exact_entries hv.1 e (hperm.mem_iff.mp he) m.2 hvalue
  | member m =>
    obtain ⟨cls,mixin,name,value⟩ := m
    cases mixin with
    | plain => cases hx; exact .str _
    | integer =>
      cases value with
      | int n => cases hx; exact .int n
      | _ => cases hx; exact .str _
    | text =>
      cases value with
      | str s => cases hx; exact .str s
      | _ => cases hx; exact .str _
  | _ => cases hx; exact .str _

theorem exact_documents {vs : List Value} {xs : List Json} (hvs : AllSound vs)
    (hxs : List.Forall₂ (fun v x => Json.ofValue .asText v = .ok x) vs xs) : ∀ x ∈ xs, x.IsExact := by
  cases hxs with
  | nil => exact fun _ h => absurd h List.not_mem_nil
  | cons hx hxs =>
    obtain ⟨hv,hvs⟩ := hvs
    exact List.forall_mem_cons.mpr ⟨Value.exact_document hv hx,exact_documents hvs hxs⟩

theorem exact_entries {es : List (Value × Value)} (hes : EntriesSound es) :
    ∀ e ∈ es, ∀ x, Json.ofValue .asText e.2 = .ok x → x.IsExact := by
  cases es with
  | nil => exact fun _ h => absurd h List.not_mem_nil
  | cons e es =>
    obtain ⟨hv,hes⟩ := hes
    exact List.forall_mem_cons.mpr ⟨fun _ => Value.exact_document hv,exact_entries hes⟩

end

/-- The text of the document of a value is read back as an equal value exactly when the value is made of what documents
hold. -/
theorem Value.read_document {v : Value} {s : String} (hv : v.IsSound) (hs : v.toJsonText .spaced .asText = .ok s) :
    ∃ w, Column.readDocument s = .ok w ∧ w.same v = v.isDocument := by
  rw [toJsonText] at hs
  cases hx : Json.ofValue .asText v with
  | error e =>
    rw [hx] at hs
    cases hs
  | ok x =>
    rw [hx] at hs
    cases hs
    refine ⟨x.toValue,?_,toValue_same hv hx⟩
    rw [Column.readDocument,Json.read?_render (exact_document hv hx)]

end Trischema
