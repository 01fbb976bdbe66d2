import Trischema.Proofs.Outcome
import Trischema.Proofs.Record.Places
import Trischema.Proofs.Record.StableSorting

/-!
Sorting records by several keys. One stable sort after another, from the last key to the first, is a stable sort by all
keys, each in its own direction; sorting downward reverses the records, sorts upward and reverses again, and so leaves
tied records in their order too.
-/

namespace Trischema

namespace Pipeline

/-- What a record holds under a key. -/
def valueAt (key record : Value) : Value := (Matching.fieldOf record key).toOption.getD .null

/-- What counts of a record when it is sorted by a key. -/
def standingAt (key record : Value) : Standing := (valueAt key record).standing

/-- The order of records by what they hold under a key. -/
def byKey (key : Value) : SortOrder → Value → Value → Ordering
  | .ascending => compareOn fun r => (standingAt key r).place
  | .descending => fun a b => compareOn (fun r => (standingAt key r).place) b a

/-- The order of records by several keys, of which the first that tells two apart counts. -/
def byKeys : List (Value × SortOrder) → Value → Value → Ordering
  | [] => fun _ _ => .eq
  | (key, order) :: keys => compareLex (byKey key order) (byKeys keys)

/-- The direction that a value stands for. -/
def directionOf (v : Value) : SortOrder := if v.same (.int 1) then .ascending else .descending

/-- The keys of a sort stage with their directions. -/
def keysOf (es : List (Value × Value)) : List (Value × SortOrder) := es.map fun (key, v) => (key, directionOf v)

/-- Whether a value stands for a direction. -/
def IsDirection (v : Value) : Prop := v.same (.int 1) = true ∨ v.same (.int (-1)) = true

/-- Whether what is given are records that can be put in order by a key: none holds a number there where another one
holds a time. -/
structure CanSort (key : Value) (records : List Value) : Prop where
  mappings : ∀ r ∈ records, ∃ es, r = .mapping es
  unmixed : ∀ r ∈ records, ∀ s ∈ records, (standingAt key r).mixed (standingAt key s) = false

/-- Whether no record holds the number that is none under a key. -/
def HasNumbers (key : Value) (records : List Value) : Prop := ∀ r ∈ records, (standingAt key r).isNan = false

instance transCmp_byKey (key : Value) (order : SortOrder) : Std.TransCmp (byKey key order) := by
  cases order with
  | ascending => exact inferInstanceAs (Std.TransCmp (compareOn _))
  | descending => exact inferInstanceAs (Std.TransCmp fun a b => compareOn (fun r => (standingAt key r).place) b a)

instance transCmp_byKeys : ∀ keys : List (Value × SortOrder), Std.TransCmp (byKeys keys)
  | [] => { eq_swap := rfl, isLE_trans := fun _ _ => rfl }
  | (key, order) :: keys =>
    have := transCmp_byKeys keys
    inferInstanceAs (Std.TransCmp (compareLex (byKey key order) (byKeys keys)))

variable {key v : Value} {order : SortOrder} {records out : List Value} {es : List (Value × Value)}

theorem fieldOf_mapping (es : List (Value × Value)) (key : Value) :
    Matching.fieldOf (.mapping es) key = .ok (valueAt key (.mapping es)) := rfl

theorem exists_mapping_of_fieldOf {record : Value} (h : Matching.fieldOf record key = .ok v) :
    (∃ es, record = .mapping es) ∧ v = valueAt key record := by
  cases record with
  | mapping es => exact ⟨⟨es,rfl⟩,(Except.ok.inj h).symm⟩
  | _ => cases h

/-- Records as they are sorted, with their sort keys. -/
def keyed (key : Value) (records : List Value) : List (SortKey × Value) :=
  records.map fun r => ((valueAt key r).sortKey,r)

theorem keyBy_eq_ok {pairs : List (SortKey × Value)} :
    keyBy key records = .ok pairs ↔ (∀ r ∈ records, ∃ es, r = .mapping es) ∧ pairs = keyed key records := by
  rw [keyBy,keyed]
  induction records generalizing pairs with
  | nil =>
    rw [List.mapM_nil,pure_eq_ok,eq_comm]
    simp
  | cons r rs ih =>
    simp only [List.mapM_cons,bind_eq_ok,pure_eq_ok,List.forall_mem_cons,List.map_cons,ih]
    constructor
    · rintro ⟨pair,⟨v,hv,rfl⟩,rest,⟨hrs,rfl⟩,rfl⟩
      obtain ⟨hr,rfl⟩ := exists_mapping_of_fieldOf hv
      exact ⟨⟨hr,hrs⟩,rfl⟩
    · rintro ⟨⟨⟨fields,rfl⟩,hrs⟩,rfl⟩
      exact ⟨_,⟨_,fieldOf_mapping fields key,rfl⟩,_,⟨hrs,rfl⟩,rfl⟩

theorem orderOf_eq_ok : orderOf key v = .ok order ↔ IsDirection v ∧ order = directionOf v := by
  rw [orderOf,IsDirection,directionOf]
  by_cases hup : v.same (.int 1) = true
  · rw [if_pos hup,if_pos hup,Except.ok.injEq,eq_comm]
    exact (and_iff_right (.inl hup)).symm
  rw [if_neg hup,if_neg hup]
  by_cases hdown : v.same (.int (-1)) = true
  · rw [if_pos hdown,Except.ok.injEq,eq_comm]
    exact (and_iff_right (.inr hdown)).symm
  · rw [if_neg hdown]
    exact iff_of_false nofun fun h => h.1.elim hup hdown

theorem byKey_isLE (a b : Value) :
    (byKey key .ascending a b).isLE = true ↔ (standingAt key a).place ≤ (standingAt key b).place := by
  rw [byKey,compareOn,Ordering.isLE_iff_ne_gt]
  exact compare_le_iff_le

theorem mem_keyed {entry : SortKey × Value} :
    entry ∈ keyed key records ↔ ∃ r ∈ records, entry = ((valueAt key r).sortKey,r) := by
  simp only [keyed,List.mem_map,eq_comm]

/-- Arranging records by their sort keys is sorting them by what they hold under the key. -/
theorem arrange_keyed (hnumbers : HasNumbers key records) (h : CanSort key records) :
    (arrange (keyed key records)).map (·.2) = records.mergeSort fun a b => (byKey key .ascending a b).isLE := by
  have hplaced : (keyed key records).all (·.1.isPlaced) = true := by
    rw [keyed,List.all_map,List.all_eq_true]
    exact fun r hr => Value.isPlaced_of_standing (hnumbers r hr)
  have horder (a b : Value) (ha : a ∈ records) (hb : b ∈ records) :
      (!(valueAt key b).sortKey.before (valueAt key a).sortKey) = (byKey key .ascending a b).isLE := by
    have hbefore := Value.before_iff (hnumbers b hb) (hnumbers a ha) (h.unmixed b hb a ha)
    rw [Bool.eq_iff_iff,byKey_isLE,← not_lt,Bool.not_eq_true',← Bool.not_eq_true]
    exact not_congr hbefore
  have hrecords : (keyed key records).map (·.2) = records := by
    rw [keyed,List.map_map]
    exact List.map_id records
  rw [arrange,if_pos hplaced,List.map_mergeSort (s := fun a b => (byKey key .ascending a b).isLE),hrecords]
  intro p hp q hq
  obtain ⟨a,ha,rfl⟩ := mem_keyed.mp hp
  obtain ⟨b,hb,rfl⟩ := mem_keyed.mp hq
  exact horder a b ha hb

theorem CanSort.subset (h : CanSort key records) (hsub : out ⊆ records) : CanSort key out :=
  ⟨fun r hr => h.mappings r (hsub hr),fun r hr s hs => h.unmixed r (hsub hr) s (hsub hs)⟩

/-- The sort keys of records can be compared where no number stands beside a time. -/
theorem comparable_keyed :
    ((keyed key records).all fun (a,_) => (keyed key records).all fun (b,_) => a.comparable b) = true ↔
      ∀ r ∈ records, ∀ s ∈ records, (standingAt key r).mixed (standingAt key s) = false := by
  simp only [keyed,List.all_map,List.all_eq_true,Function.comp_apply,Value.comparable_eq,Bool.not_eq_true']
  exact Iff.rfl

/-- What comes with sort keys, arranged in a direction. -/
def arrangeBy {α : Type} : SortOrder → List (SortKey × α) → List (SortKey × α)
  | .ascending, pairs => arrange pairs
  | .descending, pairs => (arrange pairs.reverse).reverse

theorem sortBy_eq_ok {α : Type} {pairs sorted : List (SortKey × α)} : sortBy order pairs = .ok sorted ↔
    (pairs.all fun (a,_) => pairs.all fun (b,_) => a.comparable b) = true ∧ sorted = arrangeBy order pairs := by
  unfold sortBy
  split
  · rename_i h
    rw [Except.ok.injEq,eq_comm,and_iff_right h]
    cases order <;> rfl
  · rename_i h
    exact iff_of_false nofun fun hboth => h hboth.1

theorem sortOn_eq_ok : sortOn key order records = .ok out ↔
    CanSort key records ∧ out = (arrangeBy order (keyed key records)).map (·.2) := by
  simp only [sortOn,bind_eq_ok,keyBy_eq_ok,sortBy_eq_ok,pure_eq_ok]
  constructor
  · rintro ⟨_,⟨hmappings,rfl⟩,_,⟨hcomparable,rfl⟩,rfl⟩
    exact ⟨⟨hmappings,comparable_keyed.mp hcomparable⟩,rfl⟩
  · rintro ⟨h,rfl⟩
    exact ⟨_,⟨h.mappings,rfl⟩,_,⟨comparable_keyed.mpr h.unmixed,rfl⟩,rfl⟩

/-- Records are arranged stably in both directions. -/
theorem arrangeBy_keyed (order : SortOrder) (hnumbers : HasNumbers key records) (h : CanSort key records) :
    IsStableSort (byKey key order) records ((arrangeBy order (keyed key records)).map (·.2)) := by
  cases order with
  | ascending =>
    rw [arrangeBy,arrange_keyed hnumbers h]
    exact isStableSort_mergeSort _ _
  | descending =>
    have hreverse : records.reverse ⊆ records := fun r hr => List.mem_reverse.mp hr
    have hback : (keyed key records).reverse = keyed key records.reverse := List.map_reverse.symm
    rw [arrangeBy,hback,List.map_reverse,arrange_keyed (fun r hr => hnumbers r (hreverse hr)) (h.subset hreverse)]
    exact (isStableSort_mergeSort (byKey key .ascending) records.reverse).reverse

/-- Records are sorted by a key exactly when they can be, and then stably. -/
theorem sortOn_stable (hnumbers : HasNumbers key records) :
    sortOn key order records = .ok out ↔ CanSort key records ∧ IsStableSort (byKey key order) records out := by
  rw [sortOn_eq_ok]
  refine and_congr_right fun h => ?_
  have harranged := arrangeBy_keyed order hnumbers h
  constructor
  · rintro rfl
    exact harranged
  · exact fun hstable => hstable.unique harranged

/-- Whether records can be sorted by every key of a sort stage, in the direction that is given for it. -/
def CanSortAll (records : List Value) (es : List (Value × Value)) : Prop :=
  ∀ e ∈ es, IsDirection e.2 ∧ CanSort e.1 records

theorem CanSortAll.subset (h : CanSortAll records es) (hsub : out ⊆ records) : CanSortAll out es :=
  fun e he => ⟨(h e he).1,(h e he).2.subset hsub⟩

/-- Records are sorted by several keys exactly when they can be sorted by each, and then stably by all. -/
theorem sortOnAll_stable (hnumbers : ∀ e ∈ es, HasNumbers e.1 records) :
    sortOnAll records es = .ok out ↔ CanSortAll records es ∧ IsStableSort (byKeys (keysOf es)) records out := by
  induction es generalizing out with
  | nil =>
    have hself : IsStableSort (byKeys []) records records :=
      isStableSort_self (List.pairwise_of_forall fun _ _ => rfl)
    change Except.ok records = .ok out ↔ _
    rw [Except.ok.injEq]
    constructor
    · rintro rfl
      exact ⟨nofun,hself⟩
    · exact fun h => hself.unique h.2
  | cons e es ih =>
    obtain ⟨key,v⟩ := e
    obtain ⟨hfirst,hrest⟩ := List.forall_mem_cons.mp hnumbers
    have hall : CanSortAll records ((key,v) :: es) ↔ (IsDirection v ∧ CanSort key records) ∧ CanSortAll records es :=
      List.forall_mem_cons
    have hstep {sorted : List Value} (hsorted : IsStableSort (byKeys (keysOf es)) records sorted) :
        sortOn key (directionOf v) sorted = .ok out ↔
          CanSort key records ∧ IsStableSort (byKey key (directionOf v)) sorted out := by
      rw [sortOn_stable fun r hr => hfirst r (hsorted.perm.subset hr)]
      exact and_congr_left fun _ =>
        ⟨fun h => h.subset hsorted.perm.symm.subset,fun h => h.subset hsorted.perm.subset⟩
    simp only [sortOnAll,bind_eq_ok,orderOf_eq_ok,ih hrest,hall]
    constructor
    · rintro ⟨sorted,⟨hes,hsorted⟩,_,⟨hdirection,rfl⟩,hout⟩
      obtain ⟨hkey,hfinal⟩ := (hstep hsorted).mp hout
      exact ⟨⟨⟨hdirection,hkey⟩,hes⟩,hsorted.lex hfinal⟩
    · rintro ⟨⟨⟨hdirection,hkey⟩,hes⟩,hout⟩
      -- The sort by all keys is the one that sorts what is sorted by the later keys.
      have hsorted := isStableSort_mergeSort (byKeys (keysOf es)) records
      have hfinal := isStableSort_mergeSort (byKey key (directionOf v))
        (records.mergeSort fun a b => (byKeys (keysOf es) a b).isLE)
      have hsame := hout.unique (hsorted.lex hfinal)
      refine ⟨_,⟨hes,hsorted⟩,_,⟨hdirection,rfl⟩,(hstep hsorted).mpr ⟨hkey,?_⟩⟩
      rw [hsame]
      exact hfinal

/-- The stage that sorts by the given keys. -/
def sortStage (es : List (Value × Value)) : Value := .mapping [(.str "$sort",.mapping es)]

theorem run_sortStage (records : List Value) (es : List (Value × Value)) (stages : List Value) :
    run records (sortStage es :: stages) = sortOnAll records es >>= fun sorted => run sorted stages := rfl

theorem keysOf_middle (before after : List (Value × Value)) (key v : Value) :
    keysOf (before ++ (key,v) :: after) = keysOf before ++ (key,directionOf v) :: keysOf after := by
  simp [keysOf]

theorem byKeys_append (before after : List (Value × SortOrder)) (r s : Value) :
    byKeys (before ++ after) r s = (byKeys before r s).then (byKeys after r s) := by
  induction before with
  | nil => rfl
  | cons first before ih =>
    rw [List.cons_append,byKeys,byKeys,compareLex,compareLex,ih,Ordering.then_assoc]

/-- What comes before a record without a value, or at its place, has none either. -/
theorem isNull_of_isLE {r s : Value} (h : (byKey key .ascending r s).isLE = true) (hs : (valueAt key s).isNull = true) :
    (valueAt key r).isNull = true := by
  rw [byKey_isLE,standingAt,standingAt,Value.standing_eq_absent.mpr hs] at h
  exact Value.standing_eq_absent.mp (Standing.eq_absent_of_le h)

/-- Records that are sorted as a stage says. Where the keys before one do not tell two records apart, one without a value
there comes before the others upward and after them downward. -/
structure IsSortedBy (es : List (Value × Value)) (records out : List Value) : Prop where
  stable : IsStableSort (byKeys (keysOf es)) records out
  absent : ∀ before key v after, es = before ++ (key,v) :: after →
    out.Pairwise fun r s => byKeys (keysOf before) r s = .eq →
      match directionOf v with
      | .ascending => (valueAt key s).isNull = true → (valueAt key r).isNull = true
      | .descending => (valueAt key r).isNull = true → (valueAt key s).isNull = true

theorem isSortedBy_of_stable (h : IsStableSort (byKeys (keysOf es)) records out) : IsSortedBy es records out := by
  refine ⟨h,?_⟩
  rintro before key v after rfl
  refine h.sorted.imp fun {r s} hle htied => ?_
  rw [keysOf_middle,byKeys_append,htied,Ordering.eq_then,byKeys,compareLex] at hle
  have hkey : (byKey key (directionOf v) r s).isLE = true := Ordering.isLE_left_of_isLE_then hle
  cases hdirection : directionOf v with
  | ascending =>
    rw [hdirection] at hkey
    exact isNull_of_isLE hkey
  | descending =>
    rw [hdirection] at hkey
    exact isNull_of_isLE hkey

/-- A sort stage sorts records by all its keys, each in its direction, and leaves records that no key tells apart in the
order that they had. -/
theorem sort_lexicographic (records : List Value) (es : List (Value × Value))
    (hrecords : ∀ r ∈ records, ∃ fields, r = .mapping fields) (hdirections : ∀ e ∈ es, IsDirection e.2)
    (hunmixed : ∀ e ∈ es, ∀ r ∈ records, ∀ s ∈ records, (standingAt e.1 r).mixed (standingAt e.1 s) = false)
    (hnumbers : ∀ e ∈ es, HasNumbers e.1 records) :
    ∃ out, run records [sortStage es] = .ok out ∧ IsSortedBy es records out := by
  have hsortable : CanSortAll records es := fun e he => ⟨hdirections e he,⟨hrecords,hunmixed e he⟩⟩
  have hstable := isStableSort_mergeSort (byKeys (keysOf es)) records
  have hok := (sortOnAll_stable hnumbers).mpr ⟨hsortable,hstable⟩
  refine ⟨_,?_,isSortedBy_of_stable hstable⟩
  rw [run_sortStage,hok]
  rfl

/-- Three readings: two of one level, which is once written with a fraction, and one without a level. -/
def readings : List Value :=
  [.record [("id",.int 1),("level",.int 2),("note",.str "b")], .record [("id",.int 2),("level",.null)],
    .record [("id",.int 3),("level",.float (Binary64.ofInt 2)),("note",.str "a")]]

/-- The highest level first, and readings of one level by their notes. -/
def byLevel : List (Value × Value) := [(.str "level",.int (-1)),(.str "note",.int 1)]

theorem canSortAll_readings : CanSortAll readings byLevel := by
  have hrecords : ∀ r ∈ readings, ∃ fields, r = .mapping fields := by
    simp [readings,Value.record]
  have hunmixed : ∀ e ∈ byLevel, ∀ r ∈ readings, ∀ s ∈ readings,
      (standingAt e.1 r).mixed (standingAt e.1 s) = false := by
    decide +kernel
  have hdirections : ∀ e ∈ byLevel, IsDirection e.2 := by
    simp only [byLevel,IsDirection,List.forall_mem_cons]
    exact ⟨.inr (by decide),.inl (by decide),nofun⟩
  exact fun e he => ⟨hdirections e he,⟨hrecords,hunmixed e he⟩⟩

theorem hasNumbers_readings : ∀ e ∈ byLevel, ∀ r ∈ readings, (standingAt e.1 r).isNan = false := by
  decide +kernel

theorem sort_lexicographic_readings :
    ∃ out, run readings [sortStage byLevel] = .ok out ∧ IsSortedBy byLevel readings out := by
  have hlevel : (Value.str "level",Value.int (-1)) ∈ byLevel := List.mem_cons_self
  exact sort_lexicographic readings byLevel (canSortAll_readings _ hlevel).2.mappings
    (fun e he => (canSortAll_readings e he).1) (fun e he => (canSortAll_readings e he).2.unmixed) hasNumbers_readings

end Pipeline

end Trischema
