import Trischema.Proofs.Calendar.Ordering
import Trischema.Proofs.Record.Sorting

/-!
Sorting and comparing. Values of one kind are sorted by one key in the order in which the operators of conditions compare
them. Only moments with distances from universal time are compared by the instants that they name and sorted by their
texts, so that two with different distances may be sorted against their instants.
-/

namespace Trischema

/-- The kinds of values that are compared with one another. -/
inductive Kind
  | text
  | whole
  /-- moments without a distance from universal time -/
  | naive
  /-- moments with a distance from universal time -/
  | aware
  | day

/-- Whether a value is of a kind; days and moments are those that exist. -/
def Kind.Holds : Kind → Value → Prop
  | text, v => ∃ s, v = .str s
  | whole, v => ∃ n, v = .int n
  | naive, v => ∃ m, v = .moment m ∧ m.IsValid ∧ m.offset = none
  | aware, v => ∃ m, v = .moment m ∧ m.IsValid ∧ m.offset.isSome = true
  | day, v => ∃ d, v = .date d ∧ d.IsValid

/-- Whether the first of two values is a later moment than the second, with another distance from universal time. -/
def misplaced : Value → Value → Bool
  | .moment m, .moment n => m.offset != n.offset && decide (n.instant < m.instant)
  | _, _ => false

namespace Pipeline

variable {key v w : Value} {kind : Kind} {records out : List Value}

/-- The condition that an operator holds between what is under a key and a value. -/
def compared (c : Comparator) (key v : Value) : Value := .mapping [(key,.mapping [(.str c.name,v)])]

theorem operatorsHold_single (c : Comparator) (actual v : Value) :
    Matching.operatorsHold actual [(.str c.name,v)] = c.holds actual v := by
  have hname : (Value.str c.name).text?.bind Comparator.ofName? = some c := by
    cases c <;> decide
  rw [Matching.operatorsHold,hname]
  change (c.holds actual v >>= fun b => if b = true then Matching.operatorsHold actual [] else pure false) = _
  cases c.holds actual v with
  | error e => rfl
  | ok b => cases b <;> rfl

theorem expectationHolds_single (c : Comparator) (actual v : Value) :
    Matching.expectationHolds actual (.mapping [(.str c.name,v)]) = c.holds actual v := by
  have hdollar : c.name.startsWith "$" = true := by
    cases c <;> decide +kernel
  have hoperator : Matching.allOperators [(.str c.name,v)] = .ok true := by
    change (if c.name.startsWith "$" then Matching.allOperators [] else .ok false) = _
    rw [if_pos hdollar]
    rfl
  rw [← operatorsHold_single c actual v,Matching.expectationHolds,hoperator]
  rfl

/-- A record meets a condition of one operator where this holds of what is under the key. -/
theorem holds_compared (c : Comparator) (fields : List (Value × Value)) (key v : Value) :
    Matching.holds (.mapping fields) (compared c key v) = c.holds (valueAt key (.mapping fields)) v := by
  rw [compared,Matching.holds,Matching.entriesHold,fieldOf_mapping,ok_bind,expectationHolds_single]
  cases c.holds (valueAt key (.mapping fields)) v with
  | error e => rfl
  | ok b => cases b <;> rfl

/-- Two values by the operators that put values in order: whether the first is greater than the second. -/
structure Compares (v w : Value) (greater : Bool) : Prop where
  gt : Comparator.gt.holds v w = .ok greater
  lte : Comparator.lte.holds v w = .ok !greater
  lt : Comparator.lt.holds w v = .ok greater
  gte : Comparator.gte.holds w v = .ok !greater

theorem ordered_eq {accept : Ordering → Bool} {o : Ordering} (hv : v.isNull = false) (h : v.order? w = some (some o)) :
    v.ordered accept w = .ok (accept o) := by
  rw [Value.ordered,hv,h]
  rfl

/-- Values that are compared by what they stand for in a linear order. -/
theorem compares_of_order {α : Type} [LinearOrder α] {a b : α} (hv : v.isNull = false) (hw : w.isNull = false)
    (hvw : v.order? w = some (some (compare a b))) (hwv : w.order? v = some (some (compare b a))) :
    Compares v w (decide (b < a)) := by
  have hgt : (compare a b == .gt) = decide (b < a) := by
    rw [Bool.eq_iff_iff,beq_iff_eq,compare_gt_iff_gt,decide_eq_true_eq]
  have hlt : (compare b a == .lt) = decide (b < a) := by
    rw [Bool.eq_iff_iff,beq_iff_eq,compare_lt_iff_lt,decide_eq_true_eq]
  constructor
  · rw [Comparator.holds,ordered_eq hv hvw,hgt]
  · rw [Comparator.holds,ordered_eq hv hvw,bne,hgt]
  · rw [Comparator.holds,ordered_eq hw hwv,hlt]
  · rw [Comparator.holds,ordered_eq hw hwv,bne,hlt]

/-- Moments that both know their distance, or both do not, in the order of their texts: the first is greater only where
it is misplaced. -/
theorem compares_of_moments {m n : Moment} (hm : m.IsValid) (hn : n.IsValid) (hboth : m.comparable n = true)
    (hle : m.iso ≤ n.iso) : Compares (.moment m) (.moment n) (misplaced (.moment m) (.moment n)) := by
  have hback : n.comparable m = true := by
    rw [Moment.comparable,Bool.beq_comm]
    exact hboth
  have horder {a b : Moment} (h : a.comparable b = true) :
      (Value.moment a).order? (.moment b) = some (some (compare a.instant b.instant)) := by
    change (a.compare? b).map some = _
    rw [Moment.compare?,if_pos h]
    rfl
  have hcompares := compares_of_order rfl rfl (horder hboth) (horder hback)
  have hmisplaced : decide (n.instant < m.instant) = misplaced (.moment m) (.moment n) := by
    by_cases hoffset : m.offset = n.offset
    · have hsorted : ¬n.instant < m.instant := fun hlt => not_lt.mpr hle ((hn.iso_lt_iff hm hoffset.symm).mpr hlt)
      rw [misplaced,decide_eq_false hsorted,Bool.and_false]
    · rw [misplaced,bne_iff_ne.mpr hoffset,Bool.true_and]
  rwa [hmisplaced] at hcompares

/-- A value of a kind is greater than one that it is sorted before only where its moment is misplaced. -/
theorem compares_of_kind (hv : kind.Holds v) (hw : kind.Holds w) (hle : v.standing.place ≤ w.standing.place) :
    Compares v w (misplaced v w) := by
  cases kind with
  | text =>
    obtain ⟨s,rfl⟩ := hv
    obtain ⟨t,rfl⟩ := hw
    have hsorted : ¬t < s := not_lt.mpr (Standing.other_le.mp hle)
    have hcompares : Compares (.str s) (.str t) (decide (t < s)) := compares_of_order rfl rfl rfl rfl
    rwa [decide_eq_false hsorted] at hcompares
  | whole =>
    obtain ⟨m,rfl⟩ := hv
    obtain ⟨n,rfl⟩ := hw
    have hsorted : ¬n < m := not_lt.mpr (Standing.whole_le.mp hle)
    have hcompares : Compares (.int m) (.int n) (decide (n < m)) := compares_of_order rfl rfl rfl rfl
    rwa [decide_eq_false hsorted] at hcompares
  | naive =>
    obtain ⟨m,rfl,hm,hmoffset⟩ := hv
    obtain ⟨n,rfl,hn,hnoffset⟩ := hw
    have hboth : m.comparable n = true := by rw [Moment.comparable,hmoffset,hnoffset]; rfl
    exact compares_of_moments hm hn hboth (Standing.time_le.mp hle)
  | aware =>
    obtain ⟨m,rfl,hm,hmoffset⟩ := hv
    obtain ⟨n,rfl,hn,hnoffset⟩ := hw
    have hboth : m.comparable n = true := by rw [Moment.comparable,hmoffset,hnoffset]; rfl
    exact compares_of_moments hm hn hboth (Standing.time_le.mp hle)
  | day =>
    obtain ⟨d,rfl,hd⟩ := hv
    obtain ⟨e,rfl,he⟩ := hw
    have hsorted : ¬e.ordinal < d.ordinal := fun hlt => not_lt.mpr (Standing.time_le.mp hle) ((he.iso_lt_iff hd).mpr hlt)
    have hcompares : Compares (.date d) (.date e) (decide (e.ordinal < d.ordinal)) := compares_of_order rfl rfl rfl rfl
    rwa [decide_eq_false hsorted] at hcompares

theorem kind_mixed (hv : v = .null ∨ kind.Holds v) (hw : w = .null ∨ kind.Holds w) :
    v.standing.mixed w.standing = false := by
  rcases hv with rfl | hv
  · cases w.standing <;> rfl
  rcases hw with rfl | hw
  · cases v.standing <;> rfl
  cases kind <;> obtain ⟨_,rfl,_⟩ := hv <;> obtain ⟨_,rfl,_⟩ := hw <;> rfl

theorem kind_isNan (hv : v = .null ∨ kind.Holds v) : v.standing.isNan = false := by
  rcases hv with rfl | hv
  · rfl
  cases kind <;> obtain ⟨_,rfl,_⟩ := hv <;> rfl

/-- The stage that sorts upward by one key. -/
def upward (key : Value) : Value := sortStage [(key,.int 1)]

theorem run_upward (key : Value) (records : List Value) :
    run records [upward key] = sortOn key .ascending records := by
  have horder : orderOf key (.int 1) = .ok .ascending := rfl
  rw [upward,run_sortStage,sortOnAll,sortOnAll,ok_bind,horder,ok_bind]
  cases sortOn key .ascending records <;> rfl

theorem exists_upward (hrecords : ∀ r ∈ records, ∃ fields, r = .mapping fields)
    (hkind : ∀ r ∈ records, valueAt key r = .null ∨ kind.Holds (valueAt key r)) :
    ∃ out, run records [upward key] = .ok out ∧ IsStableSort (byKey key .ascending) records out := by
  have hsortable : CanSort key records := ⟨hrecords,fun r hr s hs => kind_mixed (hkind r hr) (hkind s hs)⟩
  have hnumbers : HasNumbers key records := fun r hr => kind_isNan (hkind r hr)
  have hstable := isStableSort_mergeSort (byKey key .ascending) records
  have hok := (sortOn_stable hnumbers).mpr ⟨hsortable,hstable⟩
  exact ⟨_,(run_upward key records).trans hok,hstable⟩

/-- Records with values of one kind come out of a sort in the order in which conditions compare them, but for moments
with different distances from universal time whose texts are not in the order of their instants. -/
theorem sort_compares (records : List Value) (key : Value) (kind : Kind)
    (hrecords : ∀ r ∈ records, ∃ fields, r = .mapping fields)
    (hkind : ∀ r ∈ records, valueAt key r = .null ∨ kind.Holds (valueAt key r)) :
    ∃ out, run records [upward key] = .ok out ∧ out.Perm records ∧
      (out.Pairwise fun r s => (valueAt key s).isNull = false →
        Matching.holds r (compared .gt key (valueAt key s)) = .ok (misplaced (valueAt key r) (valueAt key s)) ∧
        ((valueAt key r).isNull = false →
          Matching.holds r (compared .lte key (valueAt key s)) = .ok !misplaced (valueAt key r) (valueAt key s) ∧
          Matching.holds s (compared .lt key (valueAt key r)) = .ok (misplaced (valueAt key r) (valueAt key s)) ∧
          Matching.holds s (compared .gte key (valueAt key r)) = .ok !misplaced (valueAt key r) (valueAt key s))) ∧
      ∀ r ∈ records, ∀ s ∈ records, ∀ m n, valueAt key r = .moment m → valueAt key s = .moment n → m.iso < n.iso →
        [r,s].Sublist out := by
  obtain ⟨out,hout,hstable⟩ := exists_upward hrecords hkind
  refine ⟨out,hout,hstable.perm,?_,?_⟩
  · refine hstable.sorted.imp_of_mem fun {r s} hr hs hle hpresent => ?_
    have hrmem := hstable.perm.subset hr
    have hsmem := hstable.perm.subset hs
    have hw : kind.Holds (valueAt key s) :=
      (hkind s hsmem).resolve_left fun hnull => by rw [hnull] at hpresent; cases hpresent
    rw [byKey_isLE] at hle
    obtain ⟨fields,rfl⟩ := hrecords r hrmem
    obtain ⟨others,rfl⟩ := hrecords s hsmem
    simp only [holds_compared]
    rcases hkind _ hrmem with hnull | hv
    · rw [hnull]
      exact ⟨rfl,nofun⟩
    · have hcompares := compares_of_kind hv hw hle
      exact ⟨hcompares.gt,fun _ => ⟨hcompares.lte,hcompares.lt,hcompares.gte⟩⟩
  · intro r hr s hs m n hm hn hlt
    refine hstable.sublist_of_lt hr hs ?_
    change compare (valueAt key r).standing.place (valueAt key s).standing.place = .lt
    rw [hm,hn,compare_lt_iff_lt,← not_le]
    exact fun hle => not_lt.mpr (Standing.time_le.mp hle) hlt

/-- Noon in universal time, by a clock that is an hour ahead. -/
def noon : Moment := ⟨⟨2024,2,29⟩,13,0,0,0,some 3600000000⟩

/-- Half an hour later, by a clock that shows universal time. -/
def lunch : Moment := ⟨⟨2024,2,29⟩,12,30,0,0,some 0⟩

def meetingAt (m : Moment) : Value := .record [("at",.moment m)]

theorem meetings_aware : ∀ r ∈ [meetingAt noon,meetingAt lunch],
    valueAt (.str "at") r = .null ∨ Kind.aware.Holds (valueAt (.str "at") r) := by
  have hnoon : noon.IsValid := ⟨⟨by decide,by decide,by decide⟩,by decide,by decide,by decide,by decide,by simp [noon]⟩
  have hlunch : lunch.IsValid := ⟨⟨by decide,by decide,by decide⟩,by decide,by decide,by decide,by decide,by simp [lunch]⟩
  simp only [List.forall_mem_cons]
  exact ⟨.inr ⟨noon,rfl,hnoon,rfl⟩,.inr ⟨lunch,rfl,hlunch,rfl⟩,nofun⟩

theorem sort_compares_meetings : ∃ out, run [meetingAt noon,meetingAt lunch] [upward (.str "at")] = .ok out ∧
    out.Perm [meetingAt noon,meetingAt lunch] ∧ [meetingAt lunch,meetingAt noon].Sublist out := by
  have hrecords : ∀ r ∈ [meetingAt noon,meetingAt lunch], ∃ fields, r = .mapping fields := by
    simp [meetingAt,Value.record]
  obtain ⟨out,hout,hperm,_,hplaces⟩ := sort_compares _ (.str "at") .aware hrecords meetings_aware
  refine ⟨out,hout,hperm,hplaces _ (by simp) _ (by simp) lunch noon rfl rfl ?_⟩
  decide +kernel

/-- The later of two meetings comes first, and is greater than the one that comes after it. -/
theorem sort_compares_abroad :
    run [meetingAt noon,meetingAt lunch] [upward (.str "at")] = .ok [meetingAt lunch,meetingAt noon] ∧
      Matching.holds (meetingAt lunch) (compared .gt (.str "at") (valueAt (.str "at") (meetingAt noon))) = .ok true := by
  have hrecords : ∀ r ∈ [meetingAt noon,meetingAt lunch], ∃ fields, r = .mapping fields := by
    simp [meetingAt,Value.record]
  obtain ⟨out,hout,hstable⟩ := exists_upward hrecords meetings_aware
  have hbefore : byKey (.str "at") .ascending (meetingAt lunch) (meetingAt noon) = .lt := by decide +kernel
  have hsublist := hstable.sublist_of_lt (by simp) (by simp) hbefore
  have hlist : [meetingAt lunch,meetingAt noon] = out := hsublist.eq_of_length hstable.perm.length_eq.symm
  refine ⟨hout.trans (congrArg Except.ok hlist.symm),?_⟩
  exact (holds_compared .gt _ _ _).trans rfl

end Pipeline

end Trischema
