import Trischema.Proofs.Record.Sorting

/-!
Sorting records of mixed values. Values of any kinds can be sorted together, with one exception: numbers and times have
the same rank among sort keys, and cannot be compared with each other. Records that hold both under a key are refused, all
others are sorted, whatever number is none among them.
-/

namespace Trischema

namespace Insertion

variable {α : Type} (before : α → α → Bool)

theorem run_append (accept : α → α → Bool) (last : α) (xs : List α) :
    (run accept last xs).1 ++ (run accept last xs).2 = xs := by
  induction xs generalizing last with
  | nil => rfl
  | cons x xs ih =>
    rw [run]
    split
    · rw [List.cons_append,ih]
    · rfl

theorem leadingRun_perm (xs : List α) : ((leadingRun before xs).1 ++ (leadingRun before xs).2).Perm xs := by
  match xs with
  | [] | [x] => exact .refl _
  | x :: y :: rest =>
    rw [leadingRun]
    split
    · refine ((List.reverse_perm _).append_right _).trans ?_
      rw [List.cons_append,run_append]
    · rw [List.cons_append,run_append]

theorem insert_perm (sorted : Array α) (x : α) : (insert before sorted x).toList.Perm (x :: sorted.toList) := by
  have hsplit (i : Nat) : ((sorted.extract 0 i).push x ++ sorted.extract i sorted.size).toList =
      sorted.toList.take i ++ x :: sorted.toList.drop i := by
    simp [List.take_of_length_le]
  rw [insert,hsplit]
  refine List.perm_middle.trans ?_
  rw [List.take_append_drop]

/-- Sorting by insertion loses nothing, whatever the order is like. -/
theorem sort_perm (xs : List α) : (sort before xs).Perm xs := by
  have hfold (rest : List α) (sorted : Array α) :
      (rest.foldl (insert before) sorted).toList.Perm (sorted.toList ++ rest) := by
    induction rest generalizing sorted with
    | nil => rw [List.append_nil]; exact .refl _
    | cons x rest ih =>
      refine (ih _).trans (((insert_perm before sorted x).append_right rest).trans ?_)
      exact List.perm_middle.symm
  exact (hfold _ _).trans (leadingRun_perm before xs)

end Insertion

namespace Pipeline

variable {key v : Value} {order : SortOrder} {records out : List Value} {es : List (Value × Value)} {e : Error}

theorem arrange_perm {α : Type} (pairs : List (SortKey × α)) : (arrange pairs).Perm pairs := by
  rw [arrange]
  split
  · exact List.mergeSort_perm _ _
  · exact Insertion.sort_perm _ _

theorem arrangeBy_perm {α : Type} (order : SortOrder) (pairs : List (SortKey × α)) :
    (arrangeBy order pairs).Perm pairs := by
  cases order with
  | ascending => exact arrange_perm pairs
  | descending =>
    refine (List.reverse_perm _).trans ((arrange_perm _).trans (List.reverse_perm _))

theorem sortOn_perm (h : sortOn key order records = .ok out) : out.Perm records := by
  obtain ⟨_,rfl⟩ := sortOn_eq_ok.mp h
  have hrecords : (keyed key records).map (·.2) = records := by
    rw [keyed,List.map_map]
    exact List.map_id records
  have hperm := (arrangeBy_perm order (keyed key records)).map (·.2)
  rwa [hrecords] at hperm

/-- Records are sorted by several keys when they can be sorted by each; none is lost. -/
theorem sortOnAll_perm (h : sortOnAll records es = .ok out) : CanSortAll records es ∧ out.Perm records := by
  induction es generalizing out with
  | nil =>
    cases h
    exact ⟨List.forall_mem_nil _,.refl _⟩
  | cons first es ih =>
    obtain ⟨key,v⟩ := first
    obtain ⟨sorted,hsorted,h⟩ := bind_eq_ok.mp h
    obtain ⟨order,horder,h⟩ := bind_eq_ok.mp h
    obtain ⟨hrest,hperm⟩ := ih hsorted
    have hkey := (sortOn_eq_ok.mp h).1.subset hperm.symm.subset
    exact ⟨List.forall_mem_cons.mpr ⟨⟨(orderOf_eq_ok.mp horder).1,hkey⟩,hrest⟩,(sortOn_perm h).trans hperm⟩

theorem exists_sortOnAll (h : CanSortAll records es) : ∃ out, sortOnAll records es = .ok out ∧ out.Perm records := by
  induction es with
  | nil => exact ⟨records,rfl,.refl _⟩
  | cons first es ih =>
    obtain ⟨key,v⟩ := first
    obtain ⟨⟨hdirection,hkey⟩,hrest⟩ := List.forall_mem_cons.mp h
    obtain ⟨sorted,hsorted,hperm⟩ := ih hrest
    have hout : sortOn key (directionOf v) sorted = .ok _ := sortOn_eq_ok.mpr ⟨hkey.subset hperm.subset,rfl⟩
    refine ⟨_,?_,(sortOn_perm hout).trans hperm⟩
    rw [sortOnAll,hsorted,ok_bind,orderOf_eq_ok.mpr ⟨hdirection,rfl⟩,ok_bind,hout]

/-- What is refused when records are sorted by one key are their values. -/
theorem sortOn_fault (hrecords : ∀ r ∈ records, ∃ fields, r = .mapping fields)
    (h : sortOn key order records = .error e) : e = .failure .kind := by
  rw [sortOn,keyBy_eq_ok.mpr ⟨hrecords,rfl⟩,ok_bind] at h
  rcases bind_eq_error.mp h with h | ⟨_,_,h⟩
  · unfold sortBy at h
    split at h <;> cases h
    rfl
  · cases h

/-- A sort by several keys fails at one of them, after it succeeded by all later ones. -/
theorem sortOnAll_eq_error : sortOnAll records es = .error e ↔
    ∃ before key v after sorted, es = before ++ (key,v) :: after ∧ sortOnAll records after = .ok sorted ∧
      (orderOf key v >>= fun order => sortOn key order sorted) = .error e := by
  induction es with
  | nil =>
    refine iff_of_false (fun h => by cases h) ?_
    rintro ⟨before,key,v,after,_,hes,_⟩
    exact absurd hes.symm (List.append_ne_nil_of_right_ne_nil _ (List.cons_ne_nil _ _))
  | cons first es ih =>
    obtain ⟨key,v⟩ := first
    rw [sortOnAll,bind_eq_error,ih]
    constructor
    · rintro (⟨before,key',v',after,sorted,rfl,hsorted,herror⟩ | ⟨sorted,hsorted,herror⟩)
      · exact ⟨(key,v) :: before,key',v',after,sorted,rfl,hsorted,herror⟩
      · exact ⟨[],key,v,es,sorted,rfl,hsorted,herror⟩
    · rintro ⟨before,key',v',after,sorted,hes,hsorted,herror⟩
      cases before with
      | nil =>
        cases hes
        exact .inr ⟨sorted,hsorted,herror⟩
      | cons first before =>
        cases hes
        exact .inl ⟨before,key',v',after,sorted,rfl,hsorted,herror⟩

/-- Whether records hold, under a key that they are sorted by, a number and a time. -/
def Mixed (es : List (Value × Value)) (records : List Value) : Prop :=
  ∃ entry ∈ es, ∃ r ∈ records, ∃ s ∈ records, (standingAt entry.1 r).mixed (standingAt entry.1 s) = true

theorem canSortAll_iff (hrecords : ∀ r ∈ records, ∃ fields, r = .mapping fields)
    (hdirections : ∀ entry ∈ es, IsDirection entry.2) : CanSortAll records es ↔ ¬Mixed es records := by
  constructor
  · rintro h ⟨entry,hentry,r,hr,s,hs,hmixed⟩
    rw [(h entry hentry).2.unmixed r hr s hs] at hmixed
    cases hmixed
  · intro h entry hentry
    refine ⟨hdirections entry hentry,hrecords,fun r hr s hs => ?_⟩
    exact Bool.eq_false_of_not_eq_true fun hmixed => h ⟨entry,hentry,r,hr,s,hs,hmixed⟩

/-- Records are sorted by any keys, unless they hold both numbers and times under one of them; then the comparison of the
two is refused. Sort keys can be compared except for those of a number and a time. -/
theorem sorted_unless_mixed (records : List Value) (es : List (Value × Value))
    (hrecords : ∀ r ∈ records, ∃ fields, r = .mapping fields) (hdirections : ∀ entry ∈ es, IsDirection entry.2) :
    (∀ v w : Value, v.sortKey.comparable w.sortKey = !v.standing.mixed w.standing) ∧
    (¬Mixed es records → ∃ out, run records [sortStage es] = .ok out ∧ out.Perm records) ∧
    (Mixed es records → run records [sortStage es] = .error (.failure .kind)) := by
  refine ⟨Value.comparable_eq,fun hunmixed => ?_,fun hmixed => ?_⟩
  · obtain ⟨out,hout,hperm⟩ := exists_sortOnAll ((canSortAll_iff hrecords hdirections).mpr hunmixed)
    exact ⟨out,by rw [run_sortStage,hout]; rfl,hperm⟩
  · cases hsort : sortOnAll records es with
    | ok out => exact absurd hmixed ((canSortAll_iff hrecords hdirections).mp (sortOnAll_perm hsort).1)
    | error e =>
      obtain ⟨before,key,v,after,sorted,rfl,hsorted,herror⟩ := sortOnAll_eq_error.mp hsort
      have hdirection := hdirections (key,v) (List.mem_append_right _ List.mem_cons_self)
      have hperm := (sortOnAll_perm hsorted).2
      rw [orderOf_eq_ok.mpr ⟨hdirection,rfl⟩,ok_bind] at herror
      obtain rfl := sortOn_fault (fun r hr => hrecords r (hperm.subset hr)) herror
      rw [run_sortStage,hsort]
      rfl

/-- What was noted on a day: nothing, a choice, numbers, a word, a list and a table. -/
def remarks : List Value :=
  [.null,.bool true,.int 3,.float (.ofInt 2),.float .nan,.str "dry",.list [.int 1],.record [("wind",.int 4)]]

/-- Records of such notes. -/
def noted : List Value := remarks.map fun v => .record [("note",v)]

/-- A day among the notes. -/
def dated : Value := .record [("note",.date ⟨2024,2,29⟩)]

/-- All notes can be sorted with each other, but not with a day among them. -/
theorem sorted_unless_mixed_noted :
    (∃ out, run noted [sortStage [(.str "note",.int (-1))]] = .ok out ∧ out.Perm noted) ∧
      run (dated :: noted) [sortStage [(.str "note",.int 1)]] = .error (.failure .kind) := by
  have hrecords : ∀ r ∈ dated :: noted, ∃ fields, r = .mapping fields := by
    simp [dated,noted,remarks,Value.record]
  have hdown : ∀ entry ∈ [(Value.str "note",Value.int (-1))], IsDirection entry.2 :=
    List.forall_mem_singleton.mpr (.inr rfl)
  have hup : ∀ entry ∈ [(Value.str "note",Value.int 1)], IsDirection entry.2 :=
    List.forall_mem_singleton.mpr (.inl rfl)
  have hunmixed : ∀ r ∈ noted, ∀ s ∈ noted, (standingAt (.str "note") r).mixed (standingAt (.str "note") s) = false := by
    decide +kernel
  have hmixed : ∃ r ∈ dated :: noted, ∃ s ∈ dated :: noted,
      (standingAt (.str "note") r).mixed (standingAt (.str "note") s) = true := by
    decide +kernel
  have hnoted := (sorted_unless_mixed noted _ (fun r hr => hrecords r (List.mem_cons_of_mem _ hr)) hdown).2.1
  have hdated := (sorted_unless_mixed (dated :: noted) _ hrecords hup).2.2
  refine ⟨hnoted ?_,hdated ⟨_,List.mem_singleton_self _,hmixed⟩⟩
  rintro ⟨entry,hentry,r,hr,s,hs,hbad⟩
  obtain rfl := List.mem_singleton.mp hentry
  rw [hunmixed r hr s hs] at hbad
  cases hbad

/-- A number and a day are not sorted. -/
theorem sort_mixed : run [.record [("note",.int 1)],dated] [sortStage [(.str "note",.int 1)]] =
    .error (.failure .kind) := by
  rfl

end Pipeline

end Trischema
