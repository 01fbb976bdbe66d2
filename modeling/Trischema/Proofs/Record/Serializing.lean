import Trischema.Proofs.Compiling.Naming
import Trischema.Proofs.Repository.Preparing
import Trischema.Proofs.Value.Equality
import Trischema.Record.Basic

/-!
What values are stored as. Serialization goes through containers and instances, but it hands on the value of a member of
a constant set, and the name of an enumeration, as they are, and does not touch members that are texts or numbers too:
what it makes is plain data but for these, and serializing it again changes nothing but for these.
-/

namespace Trischema

section Collapsed

variable {α : Type} {entries : List (String × α)} {Q : α → Prop}

theorem forall_collapse_iff : (∀ e ∈ collapse entries, Q e.2) ↔
    ∀ name entry, entries.reverse.find? (·.1 == name) = some entry → Q entry.2 := by
  constructor
  · intro h name entry hentry
    exact h (name, entry.2) (mem_of_lookup (by rw [lookup_collapse,hentry]; rfl))
  · intro h e he
    have hlookup := lookup_of_nodup (collapse_nodup entries) he
    rw [lookup_collapse] at hlookup
    obtain ⟨entry,hentry,hvalue⟩ := Option.map_eq_some_iff.mp hlookup
    rw [← hvalue]
    exact h e.1 entry hentry

/-- An entry is kept unless a later one has its name. -/
theorem forall_collapse_cons {entry : String × α} : (∀ e ∈ collapse (entry :: entries), Q e.2) ↔
    (entries.any (·.1 == entry.1) = true ∨ Q entry.2) ∧ ∀ e ∈ collapse entries, Q e.2 := by
  rw [forall_collapse_iff,forall_collapse_iff,forall_last_cons (Q := fun _ entry => Q entry.2)]

theorem setNamed_there (h : (entries.map (·.1)).Nodup) {name : String} (hname : name ∈ entries.map (·.1)) (a : α) :
    setNamed entries name a = entries.map fun e => if e.1 = name then (e.1, a) else e := by
  induction entries with
  | nil => cases hname
  | cons entry rest ih =>
    obtain ⟨k,b⟩ := entry
    obtain ⟨hfirst,hrest⟩ := List.nodup_cons.mp h
    rw [setNamed,List.map_cons]
    by_cases hk : k = name
    · rw [if_pos hk,if_pos hk]
      congr 1
      refine (List.map_id rest).symm.trans (List.map_congr_left fun e he => ?_)
      exact (if_neg fun hsame => hfirst (List.mem_map.mpr ⟨e,he,hsame.trans hk.symm⟩)).symm
    · rw [if_neg hk,if_neg hk,ih hrest ((List.mem_cons.mp hname).resolve_left (Ne.symm hk))]

/-- Texts are set in a dictionary as names are in a list of entries. -/
theorem setEntry_named {entries : List (String × Value)} (h : (entries.map (·.1)).Nodup) (name : String) (v : Value) :
    Value.setEntry (entries.map fun e => (.str e.1, e.2)) (.str name) v =
      (setNamed entries name v).map fun e => (.str e.1, e.2) := by
  rw [Value.setEntry,List.any_map]
  by_cases hname : name ∈ entries.map (·.1)
  · rw [setNamed_there h hname,List.map_map,List.map_map,if_pos]
    · refine List.map_congr_left fun e _ => ?_
      by_cases hk : e.1 = name
      · have hsame := (Value.sameKey_str name name).mpr rfl
        simp [hk,hsame]
      · simp [mt (Value.sameKey_str e.1 name).mp hk,hk]
    · obtain ⟨e,he,hk⟩ := List.mem_map.mp hname
      exact List.any_eq_true.mpr ⟨e,he,(Value.sameKey_str e.1 name).mpr hk⟩
  · rw [setNamed_new hname,List.map_append,if_neg]
    · rfl
    · intro hany
      obtain ⟨e,he,hsame⟩ := List.any_eq_true.mp hany
      exact hname (List.mem_map.mpr ⟨e,he,(Value.sameKey_str e.1 name).mp hsame⟩)

/-- A dictionary that is built from texts goes on as the entries under their names do. -/
theorem foldl_setEntry_from (found entries : List (String × Value)) (h : (found.map (·.1)).Nodup) :
    (entries.map fun e => (Value.str e.1, e.2)).foldl (fun es (k, v) => Value.setEntry es k v)
        (found.map fun e => (.str e.1, e.2)) =
      (entries.foldl (fun es (k, v) => setNamed es k v) found).map fun e => (.str e.1, e.2) := by
  induction entries generalizing found with
  | nil => rfl
  | cons entry rest ih =>
    rw [List.map_cons,List.foldl_cons,List.foldl_cons]
    dsimp only
    rw [setEntry_named h]
    exact ih _ (setNamed_nodup h entry.1 entry.2)

theorem foldl_setEntry (entries : List (String × Value)) :
    (entries.map fun e => (Value.str e.1, e.2)).foldl (fun es (k, v) => Value.setEntry es k v) [] =
      (collapse entries).map fun e => (.str e.1, e.2) :=
  foldl_setEntry_from [] entries List.nodup_nil

end Collapsed

variable (leaf : Value → Bool)

mutual

/-- Whether a value is made of leaves of a kind, in lists and in dictionaries under different texts. -/
def Value.isMadeOf : Value → Bool
  | .list xs => allMadeOf xs
  | .mapping es => entriesMadeOf es && decide (es.map (·.1.text?)).Nodup
  | v => leaf v

def allMadeOf : List Value → Bool
  | [] => true
  | x :: xs => x.isMadeOf && allMadeOf xs

def entriesMadeOf : List (Value × Value) → Bool
  | [] => true
  | (.str _, v) :: es => v.isMadeOf && entriesMadeOf es
  | _ :: _ => false

end

mutual

/-- Whether a value is stored as one that is made of leaves of a kind. The value of a member of a constant set and the
name of an enumeration are stored as they are; of entries under keys of one text the last is stored, and of an instance
the attributes whose names do not start with an underscore. -/
def Value.storesAs : Value → Bool
  | .list xs | .tuple xs | .set xs => allStoreAs xs
  | .mapping es => entriesStoreAs es
  | .identifier s => leaf (.str s)
  | .member m =>
    match m.mixin with
    | .plain => m.value.isMadeOf leaf
    | _ => leaf (.member m)
  | .object o =>
    if o.cls.isA .enumeration then (o.value? "name").any (·.isMadeOf leaf)
    else visibleStoreAs o.attrs
  | v => leaf v

def allStoreAs : List Value → Bool
  | [] => true
  | x :: xs => x.storesAs && allStoreAs xs

def entriesStoreAs : List (Value × Value) → Bool
  | [] => true
  | (k, v) :: es => (es.any (fun e => e.1.display == k.display) || v.storesAs) && entriesStoreAs es

def visibleStoreAs : List (String × Value) → Bool
  | [] => true
  | (k, v) :: es => (k.startsWith "_" || v.storesAs) && visibleStoreAs es

end

mutual

/-- Whether a value is one of a domain: plain data, identifiers, members of constant sets whatever their values are,
containers of these, and instances whose visible attributes are these. An enumeration has a name. -/
def Value.IsDomain : Value → Prop
  | .list xs | .tuple xs | .set xs => AllDomain xs
  | .mapping es => EntriesDomain es
  | .object o =>
    if o.cls.isA .enumeration then (o.value? "name").isSome = true
    else (o.attrs.map (·.1)).Nodup ∧ VisibleDomain o.attrs
  | .type _ | .callable _ | .relationship _ => False
  | _ => True

def AllDomain : List Value → Prop
  | [] => True
  | x :: xs => x.IsDomain ∧ AllDomain xs

def EntriesDomain : List (Value × Value) → Prop
  | [] => True
  | (_, v) :: es => v.IsDomain ∧ EntriesDomain es

def VisibleDomain : List (String × Value) → Prop
  | [] => True
  | (k, v) :: es => (k.startsWith "_" = true ∨ v.IsDomain) ∧ VisibleDomain es

end

variable {leaf}

theorem allMadeOf_eq (xs : List Value) : allMadeOf leaf xs = xs.all (·.isMadeOf leaf) := by
  induction xs with
  | nil => rfl
  | cons x xs ih => rw [allMadeOf,ih,List.all_cons]

theorem allStoreAs_eq (xs : List Value) : allStoreAs leaf xs = xs.all (·.storesAs leaf) := by
  induction xs with
  | nil => rfl
  | cons x xs ih => rw [allStoreAs,ih,List.all_cons]

theorem visibleStoreAs_eq (es : List (String × Value)) :
    visibleStoreAs leaf es = (es.filter fun e => !e.1.startsWith "_").all (·.2.storesAs leaf) := by
  induction es with
  | nil => rfl
  | cons e es ih =>
    obtain ⟨k,v⟩ := e
    rw [visibleStoreAs,ih,List.filter_cons]
    cases k.startsWith "_" <;> rfl

theorem isMadeOf_record {es : List (String × Value)} (h : (es.map (·.1)).Nodup) :
    (Value.record es).isMadeOf leaf = es.all (·.2.isMadeOf leaf) := by
  have hentries : entriesMadeOf leaf (es.map fun e => (.str e.1, e.2)) = es.all (·.2.isMadeOf leaf) := by
    induction es with
    | nil => rfl
    | cons e es ih => rw [List.map_cons,entriesMadeOf,ih (List.nodup_cons.mp h).2,List.all_cons]
  have hkeys : ((es.map fun e => (Value.str e.1, e.2)).map (·.1.text?)).Nodup := by
    rw [List.map_map]
    exact List.map_map (g := some) ▸ h.map (Option.some_injective _)
  rw [Value.record,Value.isMadeOf,hentries,decide_eq_true hkeys,Bool.and_true]

theorem serializeAll_eq_ok {xs ys : List Value} :
    serializeAll xs = .ok ys ↔ List.Forall₂ (fun x y => x.serialize = .ok y) xs ys := by
  induction xs generalizing ys with
  | nil =>
    rw [serializeAll,List.forall₂_nil_left_iff]
    exact ⟨fun h => (Except.ok.inj h).symm,fun h => by rw [h]⟩
  | cons x xs ih =>
    simp only [serializeAll,bind_eq_ok,pure_eq_ok,List.forall₂_cons_left_iff,ih]
    constructor
    · rintro ⟨y,hy,ys,hys,rfl⟩
      exact ⟨y,ys,hy,hys,rfl⟩
    · rintro ⟨y,ys,hy,hys,rfl⟩
      exact ⟨y,hy,ys,hys,rfl⟩

/-- Whether entries are what the entries of a dictionary are stored as, each under the text of its key. -/
def StoredEntries (es : List (Value × Value)) (named : List (String × Value)) : Prop :=
  List.Forall₂ (fun e n => n.1 = e.1.display ∧ e.2.serialize = .ok n.2) es named

theorem StoredEntries.names {es : List (Value × Value)} {named : List (String × Value)} (h : StoredEntries es named) :
    named.map (·.1) = es.map (·.1.display) := (map_eq_of_forall₂ h fun _ _ h => h.1.symm).symm

theorem serializeEntries_eq_ok {es fs : List (Value × Value)} :
    serializeEntries es = .ok fs ↔ ∃ named, StoredEntries es named ∧ fs = named.map fun n => (.str n.1, n.2) := by
  induction es generalizing fs with
  | nil =>
    simp only [serializeEntries,StoredEntries,List.forall₂_nil_left_iff,exists_eq_left]
    exact ⟨fun h => (Except.ok.inj h).symm,fun h => by rw [h]; rfl⟩
  | cons e es ih =>
    simp only [serializeEntries,bind_eq_ok,pure_eq_ok,StoredEntries,List.forall₂_cons_left_iff,ih]
    constructor
    · rintro ⟨w,hw,_,⟨named,hnamed,rfl⟩,rfl⟩
      exact ⟨(e.1.display, w) :: named,⟨_,named,⟨rfl,hw⟩,hnamed,rfl⟩,rfl⟩
    · rintro ⟨_,⟨⟨_,w⟩,named,⟨rfl,hw⟩,hnamed,rfl⟩,rfl⟩
      exact ⟨w,hw,_,⟨named,hnamed,rfl⟩,rfl⟩

theorem serialize_mapping {es : List (Value × Value)} {named : List (String × Value)} (h : StoredEntries es named) :
    (Value.mapping es).serialize = .ok (.keyed named) := by
  rw [Value.serialize,serializeEntries_eq_ok.mpr ⟨named,h,rfl⟩]
  exact congrArg (fun es => Except.ok (Value.mapping es)) (foldl_setEntry named)

theorem serializeVisible_ok {es fs : List (String × Value)}
    (h : List.Forall₂ (fun e f => f.1 = e.1 ∧ e.2.serialize = .ok f.2) (es.filter fun e => !e.1.startsWith "_") fs) :
    serializeVisible es = .ok fs := by
  induction es generalizing fs with
  | nil =>
    cases h
    rfl
  | cons e es ih =>
    obtain ⟨k,v⟩ := e
    rw [serializeVisible]
    rw [List.filter_cons] at h
    cases hk : k.startsWith "_" with
    | true =>
      simp only [hk] at h
      exact ih h
    | false =>
      simp only [hk] at h
      obtain ⟨⟨_,w⟩,rest,⟨rfl,hw⟩,hrest,rfl⟩ := List.forall₂_cons_left_iff.mp h
      dsimp only at hw
      rw [if_neg Bool.false_ne_true,hw,ok_bind,ih hrest]
      rfl

namespace Value

/-- Whether a value is stored, and as one that is made of leaves exactly where this is said of it. -/
def IsStored (v : Value) : Prop := ∃ w, v.serialize = .ok w ∧ ∀ leaf, w.isMadeOf leaf = v.storesAs leaf

variable {xs : List Value}

theorem stored_all (h : ∀ x ∈ xs, x.IsStored) :
    ∃ ys, serializeAll xs = .ok ys ∧ ∀ leaf, (list ys).isMadeOf leaf = allStoreAs leaf xs := by
  obtain ⟨ys,hys⟩ := forall₂_of_forall h
  refine ⟨ys,serializeAll_eq_ok.mpr (hys.imp fun _ _ h => h.1),fun leaf => ?_⟩
  rw [isMadeOf,allMadeOf_eq,allStoreAs_eq]
  have hmade := map_eq_of_forall₂ (f := (·.storesAs leaf)) (g := (·.isMadeOf leaf)) hys fun x y h => (h.2 leaf).symm
  have hall := congrArg (·.all id) hmade
  simpa [List.all_map] using hall.symm

theorem stored_collapsed {es : List (Value × Value)} {named : List (String × Value)}
    (h : List.Forall₂ (fun e n => n.1 = e.1.display ∧ n.2.isMadeOf leaf = e.2.storesAs leaf) es named) :
    (∀ n ∈ collapse named, n.2.isMadeOf leaf = true) ↔ entriesStoreAs leaf es = true := by
  induction h with
  | nil => exact iff_of_true (fun _ h => nomatch h) rfl
  | @cons e n es named hfirst hrest ih =>
    have hlater : named.any (·.1 == n.1) = es.any (·.1.display == e.1.display) := by
      have hnames := map_eq_of_forall₂ (f := (·.1.display)) (g := (·.1)) hrest fun _ _ h => h.1.symm
      have hany := congrArg (fun names => names.any (· == e.1.display)) hnames
      rw [List.any_map,List.any_map] at hany
      rw [hfirst.1]
      exact hany.symm
    refine (forall_collapse_cons (Q := fun w : Value => w.isMadeOf leaf = true)).trans ?_
    rw [entriesStoreAs,hlater,hfirst.2,ih,Bool.and_eq_true,Bool.or_eq_true]

theorem stored_mapping {es : List (Value × Value)} (h : ∀ e ∈ es, e.2.IsStored) : (mapping es).IsStored := by
  have hnamed : ∀ e ∈ es, ∃ n : String × Value,
      (n.1 = e.1.display ∧ e.2.serialize = .ok n.2) ∧ ∀ leaf, n.2.isMadeOf leaf = e.2.storesAs leaf := by
    intro e he
    obtain ⟨w,hw,hmade⟩ := h e he
    exact ⟨(e.1.display, w),⟨rfl,hw⟩,hmade⟩
  obtain ⟨named,hnamed⟩ := forall₂_of_forall hnamed
  refine ⟨.keyed named,serialize_mapping (hnamed.imp fun _ _ h => h.1),fun leaf => ?_⟩
  rw [keyed,isMadeOf_record (collapse_nodup named),storesAs,Bool.eq_iff_iff,List.all_eq_true]
  exact stored_collapsed (hnamed.imp fun _ _ h => ⟨h.1.1,h.2 leaf⟩)

theorem stored_visible {es : List (String × Value)} (hkeys : (es.map (·.1)).Nodup)
    (h : ∀ e ∈ es, e.1.startsWith "_" = true ∨ e.2.IsStored) :
    ∃ fs, serializeVisible es = .ok fs ∧ ∀ leaf, (record fs).isMadeOf leaf = visibleStoreAs leaf es := by
  have hshown : ∀ e ∈ es.filter fun e => !e.1.startsWith "_", ∃ f : String × Value,
      (f.1 = e.1 ∧ e.2.serialize = .ok f.2) ∧ ∀ leaf, f.2.isMadeOf leaf = e.2.storesAs leaf := by
    intro e he
    obtain ⟨he,hvisible⟩ := List.mem_filter.mp he
    obtain ⟨w,hw,hmade⟩ := (h e he).resolve_left (by simpa using hvisible)
    exact ⟨(e.1, w),⟨rfl,hw⟩,hmade⟩
  obtain ⟨fs,hfs⟩ := forall₂_of_forall hshown
  have hnames := map_eq_of_forall₂ (f := (·.1)) (g := (·.1)) hfs fun _ _ h => h.1.1.symm
  have hdistinct : (fs.map (·.1)).Nodup := hnames ▸ (List.filter_sublist.map _).nodup hkeys
  refine ⟨fs,serializeVisible_ok (hfs.imp fun _ _ h => h.1),fun leaf => ?_⟩
  have hmade := map_eq_of_forall₂ (f := (·.2.storesAs leaf)) (g := (·.2.isMadeOf leaf)) hfs fun _ _ h => (h.2 leaf).symm
  have hall := congrArg (·.all id) hmade
  rw [isMadeOf_record hdistinct,visibleStoreAs_eq]
  simpa only [List.all_map,Function.comp_def,id] using hall.symm

theorem stored_object {o : Object Value} (ho : (object o).IsDomain)
    (h : o.cls.isA .enumeration = false → ∀ e ∈ o.attrs, e.1.startsWith "_" = true ∨ e.2.IsStored) :
    (object o).IsStored := by
  unfold IsDomain at ho
  cases hcls : o.cls.isA .enumeration with
  | true =>
    rw [hcls,if_pos rfl] at ho
    obtain ⟨name,hname⟩ := Option.isSome_iff_exists.mp ho
    refine ⟨name,?_,fun leaf => ?_⟩
    · have hattribute : (object o).attribute? "name" = some name := hname
      rw [serialize,hcls,if_pos rfl,getAttribute,hattribute]
    · rw [storesAs,hcls,if_pos rfl,hname,Option.any_some]
  | false =>
    rw [hcls,if_neg Bool.false_ne_true] at ho
    obtain ⟨fs,hfs,hmade⟩ := stored_visible ho.1 (h hcls)
    refine ⟨.record fs,?_,fun leaf => ?_⟩
    · rw [serialize,hcls,if_neg Bool.false_ne_true,hfs]
      rfl
    · rw [storesAs,hcls,if_neg Bool.false_ne_true,hmade]

theorem stored_member (m : Member Value) : (member m).IsStored := by
  obtain ⟨cls,mixin,name,value⟩ := m
  cases mixin with
  | plain => exact ⟨value,rfl,fun _ => rfl⟩
  | integer | text => exact ⟨_,rfl,fun _ => rfl⟩

end Value

mutual

/-- Values of a domain are stored. -/
theorem Value.stored {v : Value} (hv : v.IsDomain) : v.IsStored := by
  cases v with
  | list xs | tuple xs | set xs =>
    obtain ⟨ys,hys,hmade⟩ := Value.stored_all (allStored hv)
    exact ⟨.list ys,by rw [Value.serialize,hys]; rfl,hmade⟩
  | mapping es => exact Value.stored_mapping (entriesStored hv)
  | object o =>
    refine Value.stored_object hv fun hcls => visibleStored ?_
    unfold Value.IsDomain at hv
    rw [hcls,if_neg Bool.false_ne_true] at hv
    exact hv.2
  | member m => exact Value.stored_member m
  | type t | callable c | relationship r => exact hv.elim
  | _ => exact ⟨_,rfl,fun _ => rfl⟩

theorem allStored {xs : List Value} (hxs : AllDomain xs) : ∀ x ∈ xs, x.IsStored := by
  cases xs with
  | nil => exact fun _ h => nomatch h
  | cons x xs => exact List.forall_mem_cons.mpr ⟨Value.stored hxs.1,allStored hxs.2⟩

theorem entriesStored {es : List (Value × Value)} (hes : EntriesDomain es) : ∀ e ∈ es, e.2.IsStored := by
  cases es with
  | nil => exact fun _ h => nomatch h
  | cons e es => exact List.forall_mem_cons.mpr ⟨Value.stored hes.1,entriesStored hes.2⟩

theorem visibleStored {es : List (String × Value)} (hes : VisibleDomain es) :
    ∀ e ∈ es, e.1.startsWith "_" = true ∨ e.2.IsStored := by
  cases es with
  | nil => exact fun _ h => nomatch h
  | cons e es => exact List.forall_mem_cons.mpr ⟨hes.1.imp_right Value.stored,visibleStored hes.2⟩

end

namespace Value

/-- Whether a value is plain data without parts. -/
def isPrimitive : Value → Bool
  | null | bool _ | int _ | float _ | str _ | bytes _ | date _ | moment _ => true
  | _ => false

/-- Whether serialization leaves a value without parts as it is: it is plain data, a complex number, or a member of a
constant set that is a text or a number too. -/
def isKept : Value → Bool
  | complex _ _ => true
  | member m => m.mixin != .plain
  | v => v.isPrimitive

theorem isMadeOf_mapping {es : List (Value × Value)} : (mapping es).isMadeOf leaf = true ↔
    ∃ named, mapping es = record named ∧ (named.map (·.1)).Nodup ∧ ∀ n ∈ named, n.2.isMadeOf leaf = true := by
  constructor
  · intro h
    obtain ⟨hentries,hkeys⟩ := Bool.and_eq_true_iff.mp h
    obtain ⟨named,rfl⟩ : ∃ named : List (String × Value), es = named.map fun n => (.str n.1, n.2) := by
      clear h hkeys
      induction es with
      | nil => exact ⟨[],rfl⟩
      | cons e es ih =>
        obtain ⟨k,v⟩ := e
        cases k with
        | str name =>
          obtain ⟨named,rfl⟩ := ih (Bool.and_eq_true_iff.mp hentries).2
          exact ⟨(name, v) :: named,rfl⟩
        | _ => cases hentries
    have hnames : (named.map (·.1)).Nodup := by
      have hkeys := of_decide_eq_true hkeys
      rw [List.map_map] at hkeys
      exact .of_map some (by rwa [List.map_map])
    have hall : (record named).isMadeOf leaf = true := h
    rw [isMadeOf_record hnames,List.all_eq_true] at hall
    exact ⟨named,rfl,hnames,hall⟩
  · rintro ⟨named,hes,hnames,hall⟩
    rw [hes,isMadeOf_record hnames,List.all_eq_true]
    exact hall

/-- A dictionary that is stored as it is has different texts for keys. -/
theorem serialize_mapping_self {es : List (Value × Value)} : (mapping es).serialize = .ok (mapping es) ↔
    ∃ named, mapping es = record named ∧ (named.map (·.1)).Nodup ∧ ∀ n ∈ named, n.2.serialize = .ok n.2 := by
  constructor
  · intro h
    obtain ⟨fs,hfs,_⟩ := bind_eq_ok.mp h
    obtain ⟨named,hnamed,_⟩ := serializeEntries_eq_ok.mp hfs
    -- the entries were collapsed already, as they are those of what was stored
    have hself : record (collapse named) = mapping es := Except.ok.inj ((serialize_mapping hnamed).symm.trans h)
    obtain rfl : (collapse named).map (fun n => (str n.1, n.2)) = es := mapping.inj hself
    have hnames : (named.map (·.1)).Nodup := by
      have heq := hnamed.names
      rw [List.map_map] at heq
      exact heq ▸ collapse_nodup named
    rw [(collapse_eq_self named).mpr hnames] at hnamed
    refine ⟨named,by rw [(collapse_eq_self named).mpr hnames]; rfl,hnames,fun n hn => ?_⟩
    obtain ⟨n',hn',hname,hvalue⟩ := exists_right_of_forall₂ hnamed (List.mem_map_of_mem hn)
    obtain rfl := List.inj_on_of_nodup_map hnames hn' hn hname
    exact hvalue
  · rintro ⟨named,hes,hnames,hvalues⟩
    obtain rfl : es = named.map fun n => (str n.1, n.2) := mapping.inj hes
    have hnamed : StoredEntries (named.map fun n => (str n.1, n.2)) named := by
      rw [StoredEntries,List.forall₂_map_left_iff,List.forall₂_same]
      exact fun n hn => ⟨rfl,hvalues n hn⟩
    rw [serialize_mapping hnamed,keyed,(collapse_eq_self named).mpr hnames]
    rfl

theorem value?_ne_self (o : Object Value) (name : String) : o.value? name ≠ some (object o) := by
  intro h
  obtain ⟨a,ha,hvalue⟩ := Option.map_eq_some_iff.mp h
  -- an attribute is smaller than the instance that has it
  have hsize : sizeOf o = 1 + sizeOf o.identity + sizeOf o.cls + sizeOf o.attrs + sizeOf o.shared + sizeOf o.pending := rfl
  unfold Object.attribute? at ha
  cases hown : o.attrs.lookup name with
  | some v =>
    rw [hown] at ha
    cases ha
    have hmem := List.sizeOf_lt_of_mem (mem_of_lookup hown)
    cases hvalue
    simp at hmem
    omega
  | none =>
    rw [hown] at ha
    have hmem := List.sizeOf_lt_of_mem (mem_of_lookup ha)
    cases a with
    | constant v =>
      cases hvalue
      simp at hmem
      omega
    | counting | hook m => cases hvalue

end Value

mutual

/-- What is stored as it is: what is made of what serialization leaves as it is. -/
theorem Value.serialize_self {v : Value} : v.serialize = .ok v ↔ v.isMadeOf Value.isKept = true := by
  cases v with
  | list xs =>
    have hall : (Value.list xs).serialize = .ok (.list xs) ↔ ∀ x ∈ xs, x.serialize = .ok x := by
      rw [← @List.forall₂_same Value (fun x y => x.serialize = .ok y) xs,← serializeAll_eq_ok,Value.serialize]
      simp only [bind_eq_ok,pure_eq_ok,Value.list.injEq,exists_eq_right]
    rw [hall,Value.isMadeOf,allMadeOf_eq,List.all_eq_true]
    exact forall₂_congr all_serialize_self
  | mapping es =>
    have hentries : ∀ e ∈ es, (e.2.serialize = .ok e.2 ↔ e.2.isMadeOf Value.isKept = true) := entries_serialize_self
    rw [Value.serialize_mapping_self,Value.isMadeOf_mapping]
    refine exists_congr fun named => and_congr_right fun hes => and_congr_right fun _ => forall₂_congr fun n hn => ?_
    exact hentries (.str n.1, n.2) (Value.mapping.inj hes ▸ List.mem_map_of_mem hn)
  | tuple xs =>
    refine iff_of_false (fun h => ?_) Bool.false_ne_true
    obtain ⟨ys,_,h⟩ := bind_eq_ok.mp h
    cases h
  | set xs =>
    refine iff_of_false (fun h => ?_) Bool.false_ne_true
    obtain ⟨ys,_,h⟩ := bind_eq_ok.mp h
    cases h
  | object o =>
    refine iff_of_false (fun h => ?_) Bool.false_ne_true
    rw [Value.serialize] at h
    split at h
    · rw [Value.getAttribute] at h
      split at h
      · rename_i hname
        exact Value.value?_ne_self o "name" (hname.trans (congrArg some (Except.ok.inj h)))
      · cases h
    · obtain ⟨fs,_,h⟩ := bind_eq_ok.mp h
      cases h
  | member m =>
    obtain ⟨cls,mixin,name,value⟩ := m
    cases mixin with
    | plain =>
      refine iff_of_false (fun h => ?_) Bool.false_ne_true
      -- a member would be its own value
      have hsize := congrArg sizeOf (Except.ok.inj h)
      simp only [Value.member.sizeOf_spec,Member.mk.sizeOf_spec] at hsize
      omega
    | integer | text => exact iff_of_true rfl rfl
  | relationship r =>
    refine iff_of_false (fun h => ?_) Bool.false_ne_true
    simp only [Value.serialize,bind_eq_ok,pure_eq_ok] at h
    obtain ⟨_,_,_,_,_,_,_,_,_,_,h⟩ := h
    cases h
  | identifier s => exact iff_of_false nofun Bool.false_ne_true
  | type t | callable c => exact iff_of_false nofun Bool.false_ne_true
  | _ => exact iff_of_true rfl rfl

theorem all_serialize_self {xs : List Value} : ∀ x ∈ xs, (x.serialize = .ok x ↔ x.isMadeOf Value.isKept = true) := by
  cases xs with
  | nil => exact fun _ h => nomatch h
  | cons x xs => exact List.forall_mem_cons.mpr ⟨Value.serialize_self,all_serialize_self⟩

theorem entries_serialize_self {es : List (Value × Value)} :
    ∀ e ∈ es, (e.2.serialize = .ok e.2 ↔ e.2.isMadeOf Value.isKept = true) := by
  cases es with
  | nil => exact fun _ h => nomatch h
  | cons e es => exact List.forall_mem_cons.mpr ⟨Value.serialize_self,entries_serialize_self⟩

end

section Leaves

variable {more : Value → Bool}

mutual

/-- What is made of leaves is made of leaves of a kind that has more. -/
theorem Value.isMadeOf_mono (h : ∀ v, leaf v = true → more v = true) {v : Value} (hv : v.isMadeOf leaf = true) :
    v.isMadeOf more = true := by
  cases v with
  | list xs => exact allMadeOf_mono h hv
  | mapping es =>
    obtain ⟨hentries,hkeys⟩ := Bool.and_eq_true_iff.mp hv
    exact Bool.and_eq_true_iff.mpr ⟨entriesMadeOf_mono h hentries,hkeys⟩
  | _ => exact h _ hv

theorem allMadeOf_mono (h : ∀ v, leaf v = true → more v = true) {xs : List Value} (hxs : allMadeOf leaf xs = true) :
    allMadeOf more xs = true := by
  cases xs with
  | nil => rfl
  | cons x xs =>
    obtain ⟨hx,hxs⟩ := Bool.and_eq_true_iff.mp hxs
    exact Bool.and_eq_true_iff.mpr ⟨Value.isMadeOf_mono h hx,allMadeOf_mono h hxs⟩

theorem entriesMadeOf_mono (h : ∀ v, leaf v = true → more v = true) {es : List (Value × Value)}
    (hes : entriesMadeOf leaf es = true) : entriesMadeOf more es = true := by
  cases es with
  | nil => rfl
  | cons e es =>
    obtain ⟨k,v⟩ := e
    cases k with
    | str name =>
      obtain ⟨hv,hes⟩ := Bool.and_eq_true_iff.mp hes
      exact Bool.and_eq_true_iff.mpr ⟨Value.isMadeOf_mono h hv,entriesMadeOf_mono h hes⟩
    | _ => cases hes

end

end Leaves

namespace Value

theorem isKept_of_isPrimitive (v : Value) (h : v.isPrimitive = true) : v.isKept = true := by
  cases v <;> first | exact h | cases h

/-- Every value of a domain is stored. It is stored as plain data, in lists and in dictionaries under different texts,
exactly when all that is taken over as it is, is plain data: the values of members of constant sets, members that are
texts or numbers themselves, and the names of enumerations. What is stored is stored again as it is exactly when all of
that is, which is so of all plain data; so a property keeps what was read back from it. -/
theorem stores_plainly {v : Value} (hv : v.IsDomain) : ∃ w, v.serialize = .ok w ∧
    (w.isMadeOf isPrimitive = true ↔ v.storesAs isPrimitive = true) ∧
    (w.serialize = .ok w ↔ v.storesAs isKept = true) ∧
    (v.storesAs isPrimitive = true → v.storesAs isKept = true) ∧
    ∀ p : Property, p.isRelationship = false → p.stored v = .ok w ∧ (v.storesAs isKept = true → p.stored w = .ok w) := by
  obtain ⟨w,hw,hmade⟩ := stored hv
  have hagain : w.serialize = .ok w ↔ v.storesAs isKept = true := by rw [serialize_self,hmade]
  refine ⟨w,hw,by rw [hmade],hagain,fun h => ?_,fun p hp => ?_⟩
  · rw [← hmade] at h ⊢
    exact isMadeOf_mono isKept_of_isPrimitive h
  · have hstored (x : Value) : p.stored x = x.serialize := by
      rw [Property.stored,hp]
      rfl
    exact ⟨(hstored v).trans hw,fun h => (hstored w).trans (hagain.mpr h)⟩

/-- A size that is a pair. -/
def pair : Value :=
  .member ⟨.defined (.defined "Size" 1 [.builtin .constantSet, .builtin .object]), .plain, "PAIR", .tuple [.int 1, .int 2]⟩

/-- A colour that is a text. -/
def red : Value :=
  .member ⟨.defined (.defined "Color" 2 [.builtin .text, .builtin .constantSet, .builtin .object]), .text, "RED", .str "red"⟩

/-- An instance of a value object with a private attribute, whose other attributes are a set of identifiers and a
dictionary with two keys of one text, the first of which is under a pair. -/
def crate : Value := .object {
  identity := 1
  cls := ⟨.defined "Crate" 0 [.builtin .valueObject, .builtin .object], none⟩
  attrs := [("_size", pair), ("parts", .set [.identifier "a"]),
    ("sizes", .mapping [(.int 1, pair), (.str "1", .tuple [.str "S", .null])])]
  shared := []
  pending := [] }

theorem stores_plainly_crate : crate.IsDomain ∧ crate.storesAs isPrimitive = true ∧ ∃ w, crate.serialize = .ok w ∧
    w.isMadeOf isPrimitive = true ∧ w.serialize = .ok w := by
  have hdomain : crate.IsDomain :=
    ⟨by decide,.inl (by decide +kernel),.inr ⟨trivial,trivial⟩,.inr ⟨trivial,⟨trivial,trivial,trivial⟩,trivial⟩,trivial⟩
  have hplain : crate.storesAs isPrimitive = true := by decide +kernel
  obtain ⟨w,hw,hmade,hagain,hkept,_⟩ := stores_plainly hdomain
  exact ⟨hdomain,hplain,w,hw,hmade.mpr hplain,hagain.mpr (hkept hplain)⟩

/-- A pair that is the value of a member is stored as a pair and not as a list, and a member that is a text as a member. -/
theorem stores_plainly_members : pair.IsDomain ∧ red.IsDomain ∧ pair.serialize = .ok (.tuple [.int 1, .int 2]) ∧
    (Value.tuple [.int 1, .int 2]).isMadeOf isPrimitive = false ∧
    (Value.tuple [.int 1, .int 2]).serialize = .ok (.list [.int 1, .int 2]) ∧
    red.serialize = .ok red ∧ red.isMadeOf isPrimitive = false :=
  ⟨trivial,trivial,rfl,rfl,rfl,rfl,rfl⟩

end Value

end Trischema
