import Mathlib.Data.List.Perm.Basic
import Trischema.Proofs.Json.Writing
import Trischema.Proofs.Outcome

/-!
Values that are written as the same text: what two lists or two records that are written alike have in common.
-/

namespace Trischema

namespace Json

theorem ofValues_eq_ok {unknown : Unknown} {vs : List Value} {xs : List Json} :
    ofValues unknown vs = .ok xs ↔ List.Forall₂ (fun v x => ofValue unknown v = .ok x) vs xs := by
  induction vs generalizing xs with
  | nil =>
    rw [ofValues,List.forall₂_nil_left_iff]
    exact ⟨fun h => (Except.ok.inj h).symm,fun h => by rw [h]⟩
  | cons v vs ih =>
    simp only [ofValues,bind_eq_ok,pure_eq_ok,List.forall₂_cons_left_iff,ih]
    constructor
    · rintro ⟨x,hx,xs,hxs,rfl⟩
      exact ⟨x,xs,hx,hxs,rfl⟩
    · rintro ⟨x,xs,hx,hxs,rfl⟩
      exact ⟨x,hx,xs,hxs,rfl⟩

theorem ofEntries_eq_ok {unknown : Unknown} {es : List (Value × Value)} {entries : List (Value × Json)} :
    ofEntries unknown es = .ok entries ↔
      List.Forall₂ (fun e entry => entry.1 = e.1 ∧ ofValue unknown e.2 = .ok entry.2) es entries := by
  induction es generalizing entries with
  | nil =>
    rw [ofEntries,List.forall₂_nil_left_iff]
    exact ⟨fun h => (Except.ok.inj h).symm,fun h => by rw [h]⟩
  | cons e es ih =>
    simp only [ofEntries,bind_eq_ok,pure_eq_ok,List.forall₂_cons_left_iff,ih]
    constructor
    · rintro ⟨x,hx,rest,hrest,rfl⟩
      exact ⟨(e.1,x),rest,⟨rfl,hx⟩,hrest,rfl⟩
    · rintro ⟨⟨_,x⟩,rest,⟨rfl,hx⟩,hrest,rfl⟩
      exact ⟨x,hx,rest,hrest,rfl⟩

theorem nameEntries_eq_ok {entries : List (Value × Json)} {ms : List (String × Json)}
    (h : nameEntries entries = .ok ms) :
    List.Forall₂ (fun entry m => memberName? entry.1 = some m.1 ∧ m.2 = entry.2) entries ms := by
  induction entries generalizing ms with
  | nil =>
    cases h
    exact .nil
  | cons entry entries ih =>
    rw [nameEntries] at h
    cases hname : memberName? entry.1 with
    | none =>
      rw [hname] at h
      cases h
    | some name =>
      rw [hname] at h
      obtain ⟨rest,hrest,hms⟩ := bind_eq_ok.mp h
      cases pure_eq_ok.mp hms
      exact .cons ⟨hname,rfl⟩ (ih hrest)

theorem sortEntries_error {entries : List (Value × Json)} {e : Error} (h : sortEntries entries = .error e) :
    e = .failure .kind := by
  rw [sortEntries] at h
  split at h
  · cases h
  · exact (Except.error.inj h).symm

theorem nameEntries_error {entries : List (Value × Json)} {e : Error} (h : nameEntries entries = .error e) :
    e = .failure .kind := by
  induction entries with
  | nil => cases h
  | cons entry entries ih =>
    rw [nameEntries] at h
    cases hname : memberName? entry.1 with
    | none =>
      rw [hname] at h
      exact (Except.error.inj h).symm
    | some name =>
      rw [hname] at h
      exact (bind_eq_error.mp h).elim ih fun ⟨_,_,h⟩ => nomatch h

mutual

/-- A value without a document is of a kind that documents do not hold. -/
theorem ofValue_error {unknown : Unknown} {v : Value} {e : Error} (h : ofValue unknown v = .error e) :
    e = .failure .kind := by
  cases v with
  | null | bool b | int n | float x | str s => cases h
  | list vs | tuple vs => exact (bind_eq_error.mp h).elim ofValues_error fun ⟨_,_,h⟩ => nomatch h
  | mapping es =>
    rcases bind_eq_error.mp h with h | ⟨entries,_,h⟩
    · exact ofEntries_error h
    · rcases bind_eq_error.mp h with h | ⟨sorted,_,h⟩
      · exact sortEntries_error h
      · exact (bind_eq_error.mp h).elim nameEntries_error fun ⟨_,_,h⟩ => nomatch h
  | _ =>
    rw [ofValue.eq_def] at h
    dsimp only at h
    split at h
    · cases h
    · cases h
    · cases unknown with
      | asText => cases h
      | refuse => exact (Except.error.inj h).symm

theorem ofValues_error {unknown : Unknown} {vs : List Value} {e : Error} (h : ofValues unknown vs = .error e) :
    e = .failure .kind := by
  cases vs with
  | nil => cases h
  | cons v vs =>
    rcases bind_eq_error.mp h with h | ⟨x,_,h⟩
    · exact ofValue_error h
    · exact (bind_eq_error.mp h).elim ofValues_error fun ⟨_,_,h⟩ => nomatch h

theorem ofEntries_error {unknown : Unknown} {es : List (Value × Value)} {e : Error}
    (h : ofEntries unknown es = .error e) : e = .failure .kind := by
  cases es with
  | nil => cases h
  | cons entry es =>
    rcases bind_eq_error.mp h with h | ⟨x,_,h⟩
    · exact ofValue_error h
    · exact (bind_eq_error.mp h).elim ofEntries_error fun ⟨_,_,h⟩ => nomatch h

end

theorem eq_of_text? {v : Value} {s : String} (h : v.text? = some s) :
    v = .str s ∨ ∃ cls name, v = .member ⟨cls, .text, name, .str s⟩ := by
  unfold Value.text? at h
  split at h
  · cases h
    exact .inl rfl
  · cases h
    exact .inr ⟨_,_,rfl⟩
  · cases h

/-- Texts can be put in order. -/
theorem comparable_texts {v w : Value} (hv : v.text?.isSome = true) (hw : w.text?.isSome = true) :
    comparable v w = true := by
  obtain ⟨s,hs⟩ := Option.isSome_iff_exists.mp hv
  obtain ⟨t,ht⟩ := Option.isSome_iff_exists.mp hw
  rcases eq_of_text? hs with rfl | ⟨_,_,rfl⟩ <;> rcases eq_of_text? ht with rfl | ⟨_,_,rfl⟩ <;> rfl

/-- Entries whose keys are texts can be put in order. -/
theorem sortEntries_texts {entries : List (Value × Json)} (h : ∀ e ∈ entries, e.1.text?.isSome = true) :
    sortEntries entries = .ok (entries.mergeSort fun a b => (a.1.order? b.1) != some (some .gt)) := by
  rw [sortEntries,if_pos]
  refine List.all_eq_true.mpr fun pair hpair => ?_
  exact comparable_texts (h pair.1 (List.of_mem_zip hpair).1)
    (h pair.2 (List.mem_of_mem_drop (List.of_mem_zip hpair).2))

theorem nameEntries_texts {entries : List (Value × Json)} (h : ∀ e ∈ entries, e.1.text?.isSome = true) :
    ∃ ms, nameEntries entries = .ok ms := by
  induction entries with
  | nil => exact ⟨[],rfl⟩
  | cons entry entries ih =>
    obtain ⟨hentry,hentries⟩ := List.forall_mem_cons.mp h
    obtain ⟨s,hs⟩ := Option.isSome_iff_exists.mp hentry
    obtain ⟨ms,hms⟩ := ih hentries
    have hname : memberName? entry.1 = some s := by
      rcases eq_of_text? hs with heq | ⟨_,_,heq⟩
      · rw [heq]
        rfl
      · rw [heq]
        rfl
    exact ⟨(s,entry.2) :: ms,by rw [nameEntries,hname,hms]; rfl⟩

theorem ofValue_list_ok {unknown : Unknown} {vs : List Value} (h : ∀ v ∈ vs, ∃ x, ofValue unknown v = .ok x) :
    ∃ x, ofValue unknown (.list vs) = .ok x := by
  obtain ⟨xs,hxs⟩ := forall₂_of_forall h
  exact ⟨array xs,by rw [ofValue,ofValues_eq_ok.mpr hxs]; rfl⟩

/-- A dictionary under texts is written where all its values are. -/
theorem ofValue_mapping_ok {unknown : Unknown} {es : List (Value × Value)} (hkeys : ∀ e ∈ es, e.1.text?.isSome = true)
    (h : ∀ e ∈ es, ∃ x, ofValue unknown e.2 = .ok x) : ∃ x, ofValue unknown (.mapping es) = .ok x := by
  have hentries : ∀ e ∈ es, ∃ entry : Value × Json, entry.1 = e.1 ∧ ofValue unknown e.2 = .ok entry.2 := by
    intro e he
    obtain ⟨x,hx⟩ := h e he
    exact ⟨(e.1,x),rfl,hx⟩
  obtain ⟨entries,hentries⟩ := forall₂_of_forall hentries
  have htexts : ∀ entry ∈ entries, entry.1.text?.isSome = true := by
    intro entry hentry
    obtain ⟨e,he,hkey,_⟩ := exists_left_of_forall₂ hentries hentry
    rw [hkey]
    exact hkeys e he
  have hsorted := sortEntries_texts htexts
  obtain ⟨ms,hms⟩ := nameEntries_texts fun entry hentry => htexts entry ((List.mergeSort_perm _ _).mem_iff.mp hentry)
  refine ⟨object ms,?_⟩
  rw [ofValue,ofEntries_eq_ok.mpr hentries]
  change (sortEntries entries >>= fun sorted => nameEntries sorted >>= fun ms => pure (object ms)) = _
  rw [hsorted]
  change (nameEntries _ >>= fun ms => pure (object ms)) = _
  rw [hms]
  rfl

/-- A record is written where all its values are. -/
theorem ofValue_record_ok {unknown : Unknown} {es : List (String × Value)}
    (h : ∀ e ∈ es, ∃ x, ofValue unknown e.2 = .ok x) : ∃ x, ofValue unknown (.record es) = .ok x := by
  refine ofValue_mapping_ok (fun entry hentry => ?_) fun entry hentry => ?_
  · obtain ⟨e,_,rfl⟩ := List.mem_map.mp hentry
    rfl
  · obtain ⟨e,he,rfl⟩ := List.mem_map.mp hentry
    exact h e he

/-- The document of a dictionary has a member for each entry, in an order of their keys. -/
theorem ofValue_mapping {unknown : Unknown} {es : List (Value × Value)} {x : Json}
    (h : ofValue unknown (.mapping es) = .ok x) : ∃ es' ms, es'.Perm es ∧ x = object ms ∧
      List.Forall₂ (fun e m => memberName? e.1 = some m.1 ∧ ofValue unknown e.2 = .ok m.2) es' ms := by
  obtain ⟨entries,hentries,h⟩ := bind_eq_ok.mp h
  obtain ⟨sorted,hsorted,h⟩ := bind_eq_ok.mp h
  obtain ⟨ms,hms,h⟩ := bind_eq_ok.mp h
  have hperm : entries.Perm sorted := by
    rw [sortEntries] at hsorted
    split at hsorted
    · cases hsorted
      exact (List.mergeSort_perm _ _).symm
    · cases hsorted
  obtain ⟨es',hes,hes'⟩ : Relation.Comp List.Perm _ es sorted := by
    rw [← List.forall₂_comp_perm_eq_perm_comp_forall₂]
    exact ⟨entries,ofEntries_eq_ok.mp hentries,hperm⟩
  refine ⟨es',ms,hes.symm,(pure_eq_ok.mp h).symm,?_⟩
  refine forall₂_comp hes' (nameEntries_eq_ok hms) ?_
  rintro e entry m ⟨hkey,hvalue⟩ ⟨hname,hdocument⟩
  exact ⟨by rw [← hkey,hname],by rw [hvalue,hdocument]⟩

/-- The document of a record has a member for each entry. -/
theorem ofValue_record {unknown : Unknown} {es : List (String × Value)} {x : Json}
    (h : ofValue unknown (.record es) = .ok x) :
    ∃ ms, x = object ms ∧ (∀ e ∈ es, ∃ m ∈ ms, m.1 = e.1 ∧ ofValue unknown e.2 = .ok m.2) ∧
      ∀ m ∈ ms, ∃ e ∈ es, m.1 = e.1 ∧ ofValue unknown e.2 = .ok m.2 := by
  obtain ⟨es',ms,hperm,rfl,hms⟩ := ofValue_mapping h
  refine ⟨ms,rfl,fun e he => ?_,fun m hm => ?_⟩
  · obtain ⟨m,hm,hname,hvalue⟩ := exists_right_of_forall₂ hms (hperm.mem_iff.mpr (List.mem_map_of_mem he))
    exact ⟨m,hm,(Option.some.inj hname).symm,hvalue⟩
  · obtain ⟨entry,hentry,hname,hvalue⟩ := exists_left_of_forall₂ hms hm
    obtain ⟨e,he,rfl⟩ := List.mem_map.mp (hperm.mem_iff.mp hentry)
    exact ⟨e,he,(Option.some.inj hname).symm,hvalue⟩

end Json

namespace Value

/-- Whether two values are written as the same text. -/
def SameText (v w : Value) : Prop :=
  ∃ x y, Json.ofValue .asText v = .ok x ∧ Json.ofValue .asText w = .ok y ∧ x.text = y.text

theorem SameText.symm {v w : Value} (h : SameText v w) : SameText w v := by
  obtain ⟨x,y,hx,hy,htext⟩ := h
  exact ⟨y,x,hy,hx,htext.symm⟩

theorem sameText_of_toJsonText {v w : Value} {s : String} (hv : v.toJsonText .compact .asText = .ok s)
    (hw : w.toJsonText .compact .asText = .ok s) : SameText v w := by
  have hdocument {v : Value} (h : v.toJsonText .compact .asText = .ok s) :
      ∃ x, Json.ofValue .asText v = .ok x ∧ x.text = s.toList := by
    rw [toJsonText] at h
    cases hx : Json.ofValue .asText v with
    | error e =>
      rw [hx] at h
      cases h
    | ok x =>
      rw [hx] at h
      cases h
      exact ⟨x,rfl,(String.toList_ofList).symm⟩
  obtain ⟨x,hx,hxs⟩ := hdocument hv
  obtain ⟨y,hy,hys⟩ := hdocument hw
  exact ⟨x,y,hx,hy,hxs.trans hys.symm⟩

theorem sameText_str {s t : String} (h : SameText (str s) (str t)) : s = t := by
  obtain ⟨x,y,hx,hy,htext⟩ := h
  cases hx
  cases hy
  exact (Json.quotedText_inj (congrArg (· ++ []) htext)).1

theorem sameText_bool {a b : Bool} (h : SameText (bool a) (bool b)) : a = b := by
  obtain ⟨x,y,hx,hy,htext⟩ := h
  cases hx
  cases hy
  cases a <;> cases b <;> first | rfl | cases htext

theorem not_sameText_null_str {s : String} : ¬ SameText null (str s) := by
  rintro ⟨x,y,hx,hy,htext⟩
  cases hx
  cases hy
  cases htext

theorem sameText_list {vs ws : List Value} (h : SameText (list vs) (list ws)) : List.Forall₂ SameText vs ws := by
  obtain ⟨x,y,hx,hy,htext⟩ := h
  obtain ⟨xs,hxs,hx⟩ := bind_eq_ok.mp hx
  obtain ⟨ys,hys,hy⟩ := bind_eq_ok.mp hy
  cases pure_eq_ok.mp hx
  cases pure_eq_ok.mp hy
  have hvs := Json.ofValues_eq_ok.mp hxs
  have hws := Json.ofValues_eq_ok.mp hys
  have htexts := Json.items_of_text htext
  exact forall₂_through hvs hws htexts

theorem sameText_texts {ss ts : List String} (h : SameText (.texts ss) (.texts ts)) : ss = ts := by
  have hall := sameText_list h
  rw [List.forall₂_map_left_iff,List.forall₂_map_right_iff] at hall
  have heq := hall.imp fun _ _ => sameText_str
  rwa [List.forall₂_eq_eq_eq] at heq

theorem entry_of_sameText {es es' : List (String × Value)} (h : SameText (.record es) (.record es'))
    {e : String × Value} (he : e ∈ es) : ∃ e' ∈ es', e'.1 = e.1 ∧ SameText e.2 e'.2 := by
  obtain ⟨x,y,hx,hy,htext⟩ := h
  obtain ⟨ms,rfl,hms,_⟩ := Json.ofValue_record hx
  obtain ⟨ns,rfl,_,hns⟩ := Json.ofValue_record hy
  obtain ⟨m,hm,hname,hvalue⟩ := hms e he
  obtain ⟨n,hn,hsame,hmember⟩ := exists_right_of_forall₂ (Json.members_of_text htext) hm
  obtain ⟨e',he',hname',hvalue'⟩ := hns n hn
  exact ⟨e',he',by rw [← hname',← hsame,hname],m.2,n.2,hvalue,hvalue',hmember⟩

/-- Records that are written alike have entries under the same keys, and these are written alike. -/
theorem sameText_record {es es' : List (String × Value)} (h : SameText (.record es) (.record es'))
    (hes : (es.map (·.1)).Nodup) (hes' : (es'.map (·.1)).Nodup) (key : String) :
    Option.Rel SameText (es.lookup key) (es'.lookup key) := by
  have hfound {es es' : List (String × Value)} (h : SameText (.record es) (.record es'))
      (hes' : (es'.map (·.1)).Nodup) {v : Value} (hv : es.lookup key = some v) :
      ∃ w, es'.lookup key = some w ∧ SameText v w := by
    obtain ⟨e,he,rfl,rfl⟩ : ∃ e ∈ es, e.1 = key ∧ e.2 = v := ⟨(key, v),mem_of_lookup hv,rfl,rfl⟩
    obtain ⟨e',he',hkey,hsame⟩ := entry_of_sameText h he
    rw [← hkey]
    exact ⟨e'.2,lookup_of_nodup hes' he',hsame⟩
  cases hleft : es.lookup key with
  | some v =>
    obtain ⟨w,hw,hsame⟩ := hfound h hes' hleft
    rw [hw]
    exact .some hsame
  | none =>
    cases hright : es'.lookup key with
    | none => exact .none
    | some w =>
      obtain ⟨v,hv,_⟩ := hfound h.symm hes hright
      rw [hleft] at hv
      cases hv

/-- Parts that are written alike, where they are there, are equal when their texts tell them apart. -/
theorem eq_of_sameText {α : Type} {f : α → Value} (hf : ∀ a b, SameText (f a) (f b) → a = b) {o o' : Option α}
    (h : Option.Rel SameText (o.map f) (o'.map f)) : o = o' := by
  cases o <;> cases o' <;> cases h
  · rfl
  · rename_i a b hsame
    rw [hf a b hsame]

end Value

end Trischema
