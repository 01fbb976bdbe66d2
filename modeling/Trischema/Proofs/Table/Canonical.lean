import Trischema.Proofs.Table.Searching

/-!
The text of a document stands for its value. A column of documents gives back the trees that it keeps, and it keeps two
of them as one text exactly when they differ in nothing but the order of the entries of their dictionaries.
-/

namespace Trischema

namespace Value

/-- Whether a value is a tree: null, truth values, whole numbers and texts in lists and in dictionaries under different
texts, nested to any depth. -/
inductive IsTree : Value → Prop
  | null : IsTree null
  | bool (b : Bool) : IsTree (bool b)
  | int (n : Int) : IsTree (int n)
  | str (s : String) : IsTree (str s)
  | list (vs : List Value) (h : ∀ v ∈ vs, IsTree v) : IsTree (list vs)
  | record (es : List (String × Value)) (hkeys : (es.map (·.1)).Nodup) (h : ∀ e ∈ es, IsTree e.2) : IsTree (record es)

/-- Whether a tree is another one but for the order of the entries of dictionaries. A truth value is no number here. -/
inductive Rearranges : Value → Value → Prop
  | null : Rearranges null null
  | bool (b : Bool) : Rearranges (bool b) (bool b)
  | int (n : Int) : Rearranges (int n) (int n)
  | str (s : String) : Rearranges (str s) (str s)
  | list {vs ws : List Value} (hlength : vs.length = ws.length) (h : ∀ pair ∈ vs.zip ws, Rearranges pair.1 pair.2) :
      Rearranges (list vs) (list ws)
  | record {es fs : List (String × Value)} (hkeys : (es.map (·.1)).Perm (fs.map (·.1)))
      (h : ∀ e ∈ es, ∀ f ∈ fs, e.1 = f.1 → Rearranges e.2 f.2) : Rearranges (record es) (record fs)

theorem record_inj {es fs : List (String × Value)} (h : record es = record fs) : es = fs := by
  refine (List.map_injective_iff.mpr fun e f hef => ?_) (mapping.inj h)
  obtain ⟨hkey,hvalue⟩ := Prod.mk.inj hef
  exact Prod.ext (str.inj hkey) hvalue

theorem IsTree.of_list {vs : List Value} (h : (Value.list vs).IsTree) : ∀ v ∈ vs, v.IsTree := by
  generalize hv : Value.list vs = v at h
  cases h with
  | list ws h =>
    cases hv
    exact h
  | _ => cases hv

theorem IsTree.of_record {es : List (String × Value)} (h : (Value.record es).IsTree) :
    (es.map (·.1)).Nodup ∧ ∀ e ∈ es, e.2.IsTree := by
  generalize hv : Value.record es = v at h
  cases h with
  | record fs hkeys h =>
    cases record_inj hv
    exact ⟨hkeys,h⟩
  | _ => cases hv

theorem Rearranges.same {v w : Value} (h : v.Rearranges w) : v.same w = true := by
  induction h with
  | null => rfl
  | bool b => cases b <;> rfl
  | int n => exact Number.same_int n
  | str s => exact (same_str s s).mpr rfl
  | @list vs ws hlength hall ih =>
    change sameAll vs ws = true
    induction vs generalizing ws with
    | nil =>
      cases List.length_eq_zero_iff.mp hlength.symm
      rfl
    | cons v vs ihs =>
      obtain ⟨w,ws,rfl⟩ := List.exists_cons_of_length_eq_add_one hlength.symm
      obtain ⟨hfirst,hrest⟩ := List.forall_mem_cons.mp ih
      rw [sameAll,hfirst,ihs (Nat.succ.inj hlength) (fun pair hpair => hall pair (List.mem_cons_of_mem _ hpair)) hrest]
      rfl
  | @record es fs hkeys _ ih =>
    have hlength : es.length = fs.length := by simpa using hkeys.length_eq
    change ((es.map _).length == (fs.map _).length && entriesAmong (es.map _) (fs.map _)) = true
    rw [List.length_map,List.length_map,beq_iff_eq.mpr hlength,Bool.true_and,entriesAmong_iff]
    intro entry hentry
    obtain ⟨e,he,rfl⟩ := List.mem_map.mp hentry
    obtain ⟨f,hf,hkey⟩ := List.mem_map.mp (hkeys.mem_iff.mp (List.mem_map_of_mem he))
    exact ⟨_,List.mem_map_of_mem hf,(sameKey_str _ _).mpr hkey.symm,ih e he f hf hkey.symm⟩

end Value

namespace Json

variable {unknown : Unknown} {v w : Value} {x y : Json} {ms ns : List (String × Json)} {es fs : List (String × Value)}

def inOrder (ms : List (String × Json)) : List (String × Json) := ms.mergeSort fun a b => compareText a.1 b.1 != .gt

theorem compareText_le (s t : String) : (compareText s t != .gt) = decide (s ≤ t) := by
  have hgt : compareText s t = .gt ↔ t < s :=
    compareOfLessAndEq_eq_gt String.le_antisymm String.le_total String.not_le s t
  rw [Bool.eq_iff_iff,bne_iff_ne,Ne,hgt,String.not_lt,decide_eq_true_iff]

theorem inOrder_perm (ms : List (String × Json)) : (inOrder ms).Perm ms := List.mergeSort_perm ..

/-- Members of different names are put in one order, whatever order they come in. -/
theorem inOrder_eq_iff (hms : (ms.map (·.1)).Nodup) : inOrder ms = inOrder ns ↔ ms.Perm ns := by
  have hsorted (ms : List (String × Json)) : (inOrder ms).Pairwise fun a b => a.1 ≤ b.1 := by
    simp only [inOrder,compareText_le]
    refine (List.pairwise_mergeSort (fun a b c hab hbc => ?_) (fun a b => ?_) ms).imp of_decide_eq_true
    · exact decide_eq_true (String.le_trans (of_decide_eq_true hab) (of_decide_eq_true hbc))
    · rw [Bool.or_eq_true,decide_eq_true_iff,decide_eq_true_iff]
      exact String.le_total ..
  constructor
  · intro h
    exact (inOrder_perm ms).symm.trans ((List.Perm.of_eq h).trans (inOrder_perm ns))
  · intro h
    refine List.Perm.eq_of_pairwise (fun a b ha hb hab hba => ?_) (hsorted ms) (hsorted ns)
      ((inOrder_perm ms).trans (h.trans (inOrder_perm ns).symm))
    have hb := h.symm.mem_iff.mp ((inOrder_perm ns).mem_iff.mp hb)
    exact List.inj_on_of_nodup_map hms ((inOrder_perm ms).mem_iff.mp ha) hb (String.le_antisymm hab hba)

/-- Whether members are those of the entries of a record, one for each. -/
def Lists (unknown : Unknown) (es : List (String × Value)) (ms : List (String × Json)) : Prop :=
  List.Forall₂ (fun e m => e.1 = m.1 ∧ ofValue unknown e.2 = .ok m.2) es ms

theorem Lists.names (h : Lists unknown es ms) : es.map (·.1) = ms.map (·.1) := map_eq_of_forall₂ h fun _ _ h => h.1

theorem exists_lists (h : ∀ e ∈ es, ∃ x, ofValue unknown e.2 = .ok x) : ∃ ms, Lists unknown es ms := by
  refine forall₂_of_forall fun e he => ?_
  obtain ⟨x,hx⟩ := h e he
  exact ⟨(e.1,x),rfl,hx⟩

theorem nameEntries_named (ms : List (String × Json)) : nameEntries (ms.map fun m => (.str m.1, m.2)) = .ok ms := by
  induction ms with
  | nil => rfl
  | cons m ms ih =>
    rw [List.map_cons,nameEntries,ih]
    rfl

/-- The document of a record has its members in the order of their names. -/
theorem ofValue_record_ordered (h : Lists unknown es ms) : ofValue unknown (.record es) = .ok (object (inOrder ms)) := by
  have hentries : ofEntries unknown (es.map fun e => (.str e.1, e.2)) = .ok (ms.map fun m => (.str m.1, m.2)) := by
    rw [ofEntries_eq_ok,List.forall₂_map_left_iff,List.forall₂_map_right_iff]
    exact h.imp fun e m ⟨hname,hvalue⟩ => ⟨congrArg Value.str hname.symm,hvalue⟩
  have htexts : ∀ entry ∈ ms.map fun m => (Value.str m.1, m.2), entry.1.text?.isSome = true := by
    intro entry hentry
    obtain ⟨m,_,rfl⟩ := List.mem_map.mp hentry
    rfl
  have hsorted := List.map_mergeSort (r := fun a b => compareText a.1 b.1 != .gt)
    (s := fun a b : Value × Json => a.1.order? b.1 != some (some .gt)) (f := fun m : String × Json => (.str m.1, m.2))
    (l := ms) fun a _ b _ => by
      change _ = (some (some (compareText a.1 b.1)) != some (some .gt))
      cases compareText a.1 b.1 <;> rfl
  rw [Value.record,ofValue,hentries,ok_bind,sortEntries_texts htexts,ok_bind,← hsorted,nameEntries_named]
  rfl

/-- What the value of a document is, if it is a tree. -/
def Shows (unknown : Unknown) : Json → Value → Prop
  | null, v => v = .null
  | bool b, v => v = .bool b
  | int n, v => v = .int n
  | float _, _ => False
  | str s, v => v = .str s
  | array xs, v => ∃ vs, v = .list vs ∧ (∀ v ∈ vs, v.IsTree) ∧ List.Forall₂ (fun v x => ofValue unknown v = .ok x) vs xs
  | object ms, v => ∃ es ns, v = .record es ∧ (es.map (·.1)).Nodup ∧ (∀ e ∈ es, e.2.IsTree) ∧ Lists unknown es ns ∧
      ms = inOrder ns

/-- Every tree has a document, which shows what the tree is. -/
theorem shown_of_tree (hv : v.IsTree) : ∃ x, ofValue unknown v = .ok x ∧ x.Shows unknown v := by
  induction hv with
  | null => exact ⟨null,rfl,rfl⟩
  | bool b => exact ⟨bool b,rfl,rfl⟩
  | int n => exact ⟨int n,rfl,rfl⟩
  | str s => exact ⟨str s,rfl,rfl⟩
  | list vs htrees ih =>
    obtain ⟨xs,hxs⟩ := forall₂_of_forall fun v hv => (ih v hv).imp fun _ => And.left
    exact ⟨array xs,by rw [ofValue,ofValues_eq_ok.mpr hxs]; rfl,vs,rfl,htrees,hxs⟩
  | record es hkeys htrees ih =>
    obtain ⟨ms,hms⟩ := exists_lists fun e he => (ih e he).imp fun _ => And.left
    exact ⟨object (inOrder ms),ofValue_record_ordered hms,es,ms,rfl,hkeys,htrees,hms,rfl⟩

theorem document_of_tree (hv : v.IsTree) : ∃ x, ofValue unknown v = .ok x := (shown_of_tree hv).imp fun _ => And.left

theorem shows_of_document (hv : v.IsTree) (hx : ofValue unknown v = .ok x) : x.Shows unknown v := by
  obtain ⟨y,hy,hshows⟩ := shown_of_tree hv
  cases hx.symm.trans hy
  exact hshows

/-- Two records whose members are the same in some order are rearranged where their values are. -/
theorem rearranges_of_perm (hes : Lists unknown es ms) (hfs : Lists unknown fs ns) (hms : (ms.map (·.1)).Nodup)
    (hperm : ms.Perm ns)
    (h : ∀ e ∈ es, ∀ f ∈ fs, ∀ x, ofValue unknown e.2 = .ok x → ofValue unknown f.2 = .ok x → e.2.Rearranges f.2) :
    (Value.record es).Rearranges (.record fs) := by
  refine .record (by rw [hes.names,hfs.names]; exact hperm.map _) fun e he f hf hkey => ?_
  obtain ⟨m,hm,hname,hvalue⟩ := exists_right_of_forall₂ hes he
  obtain ⟨n,hn,hname',hvalue'⟩ := exists_right_of_forall₂ hfs hf
  obtain rfl := List.inj_on_of_nodup_map hms hm (hperm.mem_iff.mpr hn) (hname.symm.trans (hkey.trans hname'))
  exact h e he f hf m.2 hvalue hvalue'

/-- Trees of one document are rearranged. -/
theorem rearranges_of_document (hv : v.IsTree) (hw : w.IsTree) (hx : ofValue unknown v = .ok x)
    (hy : ofValue unknown w = .ok x) : v.Rearranges w := by
  -- the induction is on the one tree, and the document shows what the other one is made of
  have hshows := shows_of_document hw hy
  induction hv generalizing w x with
  | null =>
    cases hx
    cases hshows
    exact .null
  | bool b =>
    cases hx
    cases hshows
    exact .bool b
  | int n =>
    cases hx
    cases hshows
    exact .int n
  | str s =>
    cases hx
    cases hshows
    exact .str s
  | list vs htrees ih =>
    obtain ⟨xs,hxs,hx⟩ := bind_eq_ok.mp hx
    cases pure_eq_ok.mp hx
    obtain ⟨ws,rfl,hws,hys⟩ := hshows
    have hxs := ofValues_eq_ok.mp hxs
    refine .list (hxs.length_eq.trans hys.length_eq.symm) fun pair hpair => ?_
    obtain ⟨hv,hw⟩ := List.of_mem_zip hpair
    have hall : List.Forall₂ (fun v w => ∃ x, ofValue unknown v = .ok x ∧ ofValue unknown w = .ok x) vs ws :=
      forall₂_comp hxs hys.flip fun v x w hx hy => ⟨x,hx,hy⟩
    obtain ⟨x,hx,hy⟩ := List.forall₂_zip hall hpair
    exact ih _ hv (hws _ hw) hx hy (shows_of_document (hws _ hw) hy)
  | record es hkeys htrees ih =>
    obtain ⟨ms,hms⟩ := exists_lists fun e he => document_of_tree (htrees e he)
    cases hx.symm.trans (ofValue_record_ordered hms)
    obtain ⟨fs,ns,rfl,_,hfs,hns,hsame⟩ := hshows
    rw [hms.names] at hkeys
    refine rearranges_of_perm hms hns hkeys ((inOrder_eq_iff hkeys).mp hsame) fun e he f hf x hx hy => ?_
    exact ih e he (hfs f hf) hx hy (shows_of_document (hfs f hf) hy)

theorem perm_of_rearranged (hes : Lists unknown es ms) (hfs : Lists unknown fs ns) (hkeys : (es.map (·.1)).Nodup)
    (hperm : (es.map (·.1)).Perm (fs.map (·.1)))
    (h : ∀ e ∈ es, ∀ f ∈ fs, e.1 = f.1 → ofValue unknown e.2 = ofValue unknown f.2) : ms.Perm ns := by
  -- each member of the one is among those of the other, which are no more
  have hdistinct : ms.Nodup := .of_map _ (hes.names ▸ hkeys)
  have hlength : ns.length ≤ ms.length := by
    have := hperm.length_eq
    rw [hes.names,hfs.names,List.length_map,List.length_map] at this
    exact this.ge
  refine (hdistinct.subperm fun m hm => ?_).perm_of_length_le hlength
  obtain ⟨e,he,hname,hvalue⟩ := exists_left_of_forall₂ hes hm
  obtain ⟨f,hf,hkey⟩ := List.mem_map.mp (hperm.mem_iff.mp (List.mem_map_of_mem he))
  obtain ⟨n,hn,hname',hvalue'⟩ := exists_right_of_forall₂ hfs hf
  rw [← h e he f hf hkey.symm,hvalue] at hvalue'
  obtain rfl : m = n := Prod.ext (hname.symm.trans (hkey.symm.trans hname')) (Except.ok.inj hvalue')
  exact hn

/-- Rearranged trees have one document. -/
theorem document_of_rearranged (h : v.Rearranges w) (hv : v.IsTree) (hw : w.IsTree) :
    ofValue unknown v = ofValue unknown w := by
  induction h with
  | null | bool | int | str => rfl
  | @list vs ws hlength _ ih =>
    have hall : List.Forall₂ (fun v w => ofValue unknown v = ofValue unknown w) vs ws := by
      refine List.forall₂_iff_zip.mpr ⟨hlength,fun {v w} hpair => ?_⟩
      obtain ⟨hvs,hws⟩ := List.of_mem_zip hpair
      exact ih _ hpair (hv.of_list _ hvs) (hw.of_list _ hws)
    obtain ⟨x,hx⟩ : ∃ x, ofValue unknown (.list ws) = .ok x := document_of_tree hw
    obtain ⟨xs,hxs,_⟩ := bind_eq_ok.mp hx
    have hsame : ofValues unknown vs = .ok xs :=
      ofValues_eq_ok.mpr (forall₂_comp hall (ofValues_eq_ok.mp hxs) fun v w x hvw hw => hvw.trans hw)
    rw [ofValue,ofValue,hsame,hxs]
  | @record es fs hperm _ ih =>
    obtain ⟨hkeys,hes⟩ := hv.of_record
    obtain ⟨_,hfs⟩ := hw.of_record
    obtain ⟨ms,hms⟩ : ∃ ms, Lists unknown es ms := exists_lists fun e he => document_of_tree (hes e he)
    obtain ⟨ns,hns⟩ : ∃ ns, Lists unknown fs ns := exists_lists fun f hf => document_of_tree (hfs f hf)
    have hsame := perm_of_rearranged hms hns hkeys hperm fun e he f hf hkey => ih e he f hf hkey (hes e he) (hfs f hf)
    rw [ofValue_record_ordered hms,ofValue_record_ordered hns,(inOrder_eq_iff (hms.names ▸ hkeys)).mpr hsame]

theorem document_eq_iff (hv : v.IsTree) (hw : w.IsTree) (hx : ofValue unknown v = .ok x) (hy : ofValue unknown w = .ok y) :
    x = y ↔ v.Rearranges w := by
  constructor
  · rintro rfl
    exact rearranges_of_document hv hw hx hy
  · intro h
    exact Except.ok.inj (hx.symm.trans ((document_of_rearranged h hv hw).trans hy))

theorem toValues_eq (xs : List Json) : toValues xs = xs.map toValue := by
  induction xs with
  | nil => rfl
  | cons x xs ih => rw [toValues,ih,List.map_cons]

/-- The document of a tree stands for the tree, with the entries of its dictionaries in the order of their keys. -/
theorem toValue_rearranges (hv : v.IsTree) (hx : ofValue unknown v = .ok x) : x.toValue.Rearranges v := by
  induction hv generalizing x with
  | null =>
    cases hx
    exact .null
  | bool b =>
    cases hx
    exact .bool b
  | int n =>
    cases hx
    exact .int n
  | str s =>
    cases hx
    exact .str s
  | list vs _ ih =>
    obtain ⟨xs,hxs,hx⟩ := bind_eq_ok.mp hx
    cases pure_eq_ok.mp hx
    have hxs := ofValues_eq_ok.mp hxs
    rw [toValue,toValues_eq]
    refine .list (by rw [List.length_map,hxs.length_eq]) fun pair hpair => ?_
    rw [List.zip_map_left] at hpair
    obtain ⟨⟨y,w⟩,hplace,rfl⟩ := List.mem_map.mp hpair
    exact ih w (List.of_mem_zip hplace).2 (List.forall₂_zip hxs.flip hplace)
  | record es hkeys htrees ih =>
    obtain ⟨ms,hms⟩ := exists_lists fun e he => document_of_tree (htrees e he)
    cases hx.symm.trans (ofValue_record_ordered hms)
    rw [hms.names] at hkeys
    have hnames : ((inOrder ms).map (·.1)).Nodup := ((inOrder_perm ms).map _).nodup_iff.mpr hkeys
    have hentries : (object (inOrder ms)).toValue = .record ((inOrder ms).map fun m => (m.1, m.2.toValue)) := by
      rw [toValue,toEntries_distinct [] _ hnames (List.forall_mem_nil _),Value.record,List.map_map]
      rfl
    rw [hentries]
    refine .record ?_ fun entry hentry e he hkey => ?_
    · rw [List.map_map,hms.names]
      exact (inOrder_perm ms).map _
    · obtain ⟨m,hm,rfl⟩ := List.mem_map.mp hentry
      obtain ⟨n,hn,hname,hvalue⟩ := exists_right_of_forall₂ hms he
      obtain rfl := List.inj_on_of_nodup_map hkeys ((inOrder_perm ms).mem_iff.mp hm) hn (hkey.trans hname)
      exact ih e he hvalue

theorem exact_of_tree (hv : v.IsTree) (hx : ofValue unknown v = .ok x) : x.IsExact := by
  induction hv generalizing x with
  | null =>
    cases hx
    exact .null
  | bool b =>
    cases hx
    exact .bool b
  | int n =>
    cases hx
    exact .int n
  | str s =>
    cases hx
    exact .str s
  | list vs _ ih =>
    obtain ⟨xs,hxs,hx⟩ := bind_eq_ok.mp hx
    cases pure_eq_ok.mp hx
    refine .array xs fun y hy => ?_
    obtain ⟨v,hv,hvalue⟩ := exists_left_of_forall₂ (ofValues_eq_ok.mp hxs) hy
    exact ih v hv hvalue
  | record es _ _ ih =>
    obtain ⟨ms,rfl,_,hms⟩ := ofValue_record hx
    refine .object ms fun m hm => ?_
    obtain ⟨e,he,_,hvalue⟩ := hms m hm
    exact ih e he hvalue

end Json

namespace Column

variable {c : Column} {v w : Value}

/-- What a column of documents binds for a tree that is there. -/
theorem encode_tree (htype : c.type.isSerialized = true) (hv : v.IsTree) (hnull : v ≠ .null) :
    ∃ x, Json.ofValue .asText v = .ok x ∧ c.encode v = .ok (.str (Json.render .spaced x)) := by
  obtain ⟨x,hx⟩ : ∃ x, Json.ofValue .asText v = .ok x := Json.document_of_tree hv
  have hnot : v.isNull = false := Bool.eq_false_iff.mpr fun h => hnull (Value.isNull_iff.mp h)
  refine ⟨x,hx,?_⟩
  unfold encode
  rw [hnot,htype,Value.toJsonText,hx]
  rfl

theorem encode_tree_inj (htype : c.type.isSerialized = true) (hv : v.IsTree) (hnull : v ≠ .null) (hw : w.IsTree)
    (hnull' : w ≠ .null) {s t : String} (hs : c.encode v = .ok (.str s)) (ht : c.encode w = .ok (.str t)) :
    s = t ↔ v.Rearranges w := by
  obtain ⟨x,hx,hsx⟩ := encode_tree htype hv hnull
  obtain ⟨y,hy,hty⟩ := encode_tree htype hw hnull'
  cases hs.symm.trans hsx
  cases ht.symm.trans hty
  rw [render_inj (Json.exact_of_tree hv hx) (Json.exact_of_tree hw hy),Json.document_eq_iff hv hw hx hy]

theorem decode_tree (htype : c.type.isSerialized = true) (hv : v.IsTree) (hnull : v ≠ .null) {s : String}
    (hs : c.encode v = .ok (.str s)) : ∃ u, c.decode (.str s) = .ok u ∧ u.Rearranges v := by
  obtain ⟨x,hx,hsx⟩ := encode_tree htype hv hnull
  cases hs.symm.trans hsx
  refine ⟨x.toValue,?_,Json.toValue_rearranges hv hx⟩
  rw [decode_serialized htype,readDocument,Json.read?_render (Json.exact_of_tree hv hx)]

/-- What two cells of a column of documents say of their trees: they are equal, and so duplicates and found by one
another, exactly when the trees are rearranged. -/
structure TellsApart (c : Column) (v w : Value) (a b : Cell) : Prop where
  duplicates (i : Nat) (as bs : List Cell) (ha : Table.cellAt as i = a.stored c.type.affinity)
    (hb : Table.cellAt bs i = b.stored c.type.affinity) : Table.collide [i] as bs = true ↔ v.Rearranges w
  found (t : Table) (row : Row) (name : String) (i : Nat) (column : TableColumn) (hi : t.position? name = some i)
    (hcolumn : t.columns[i]? = some column) (haffinity : column.affinity = c.type.affinity)
    (ha : Table.cellAt row.cells i = a.stored c.type.affinity) : t.meets row ⟨name, b⟩ = true ↔ v.Rearranges w

theorem tellsApart_texts (haffinity : c.type.affinity = .text) {s t : String} (h : s = t ↔ v.Rearranges w) :
    c.TellsApart v w (.text s) (.text t) where
  duplicates i as bs ha hb := by
    rw [haffinity] at ha hb
    simp only [Table.collide,List.all_cons,List.all_nil,Bool.and_true,ha,hb]
    exact beq_iff_eq.trans h
  found table row name i column hi hcolumn haffinity' ha := by
    rw [haffinity] at ha haffinity'
    simp only [Table.meets,hi,hcolumn,ha,haffinity']
    exact beq_iff_eq.trans h

/-- A column of documents binds a text for every tree that is there and gives the tree back. Two trees are bound as one
text exactly when they differ in nothing but the order of the entries of their dictionaries, and so they are the same to
unique keys and to searches. -/
theorem documents_canonical (htype : c.type.isSerialized = true) (hv : v.IsTree) (hv' : v ≠ .null) (hw : w.IsTree)
    (hw' : w ≠ .null) : ∃ s t u a b, c.encode v = .ok (.str s) ∧ c.encode w = .ok (.str t) ∧
      c.decode (.str s) = .ok u ∧ u.same v = true ∧ u.Rearranges v ∧ (s = t ↔ v.Rearranges w) ∧
      Cell.ofValue (.str s) = .ok a ∧ Cell.ofValue (.str t) = .ok b ∧ c.TellsApart v w a b := by
  obtain ⟨x,_,hx⟩ := encode_tree htype hv hv'
  obtain ⟨y,_,hy⟩ := encode_tree htype hw hw'
  obtain ⟨u,hu,hback⟩ := decode_tree htype hv hv' hx
  have htexts := encode_tree_inj htype hv hv' hw hw' hx hy
  have hcells := tellsApart_texts (ColumnType.affinity_serialized htype) htexts
  exact ⟨_,_,u,_,_,hx,hy,hu,hback.same,hback,htexts,rfl,rfl,hcells⟩

/-- A list of a truth value and of a number that has more than 64 bits. -/
def counts : Value := .list [.bool true, .int (10 ^ 20)]

/-- A dictionary in a dictionary, with texts outside ASCII. -/
def labels : Value := .record [("é", counts), ("a", .record [("y", .null), ("x", .str "𝄞")])]

/-- The same dictionaries with their entries in the order of their keys. -/
def sortedLabels : Value := .record [("a", .record [("x", .str "𝄞"), ("y", .null)]), ("é", counts)]

theorem isTree_counts : counts.IsTree :=
  .list _ (List.forall_mem_cons.mpr ⟨.bool true,List.forall_mem_singleton.mpr (.int _)⟩)

theorem isTree_labels : labels.IsTree := by
  refine .record _ (by decide) (List.forall_mem_cons.mpr ⟨isTree_counts,List.forall_mem_singleton.mpr ?_⟩)
  exact .record [("y", .null), ("x", .str "𝄞")] (by decide)
    (List.forall_mem_cons.mpr ⟨.null,List.forall_mem_singleton.mpr (.str _)⟩)

theorem isTree_sortedLabels : sortedLabels.IsTree := by
  refine .record _ (by decide) (List.forall_mem_cons.mpr ⟨?_,List.forall_mem_singleton.mpr isTree_counts⟩)
  exact .record [("x", .str "𝄞"), ("y", .null)] (by decide)
    (List.forall_mem_cons.mpr ⟨.str _,List.forall_mem_singleton.mpr .null⟩)

theorem labels_rearranged : labels.Rearranges sortedLabels := by
  have hcounts : counts.Rearranges counts :=
    .list rfl (List.forall_mem_cons.mpr ⟨.bool true,List.forall_mem_singleton.mpr (.int _)⟩)
  have hinner : (Value.record [("y", .null), ("x", .str "𝄞")]).Rearranges (.record [("x", .str "𝄞"), ("y", .null)]) :=
    .record (by decide) (by simpa using ⟨Value.Rearranges.null,Value.Rearranges.str "𝄞"⟩)
  exact .record (by decide) (by simpa using ⟨hcounts,hinner⟩)

/-- The labels are kept as one text in either order, and come back. -/
theorem documents_canonical_labels : ∃ s u, Column.encode { name := "labels", type := .document } labels = .ok (.str s) ∧
    Column.encode { name := "labels", type := .document } sortedLabels = .ok (.str s) ∧
    Column.decode { name := "labels", type := .document } (.str s) = .ok u ∧ u.same labels = true ∧
    u.Rearranges labels ∧
    Column.TellsApart { name := "labels", type := .document } labels sortedLabels (.text s) (.text s) := by
  obtain ⟨s,t,u,a,b,hs,ht,hu,hsame,hback,htexts,ha,hb,hcells⟩ :=
    documents_canonical (c := { name := "labels", type := .document }) rfl isTree_labels nofun isTree_sortedLabels nofun
  obtain rfl := htexts.mpr labels_rearranged
  cases ha
  cases hb
  exact ⟨s,u,hs,ht,hu,hsame,hback,hcells⟩

end Column

end Trischema
