import Trischema.Proofs.Record.Sorting

/-!
Filtering and sorting. A stage that filters succeeds when every record can be matched, and keeps those that match. What
is sorted first and filtered then is what is filtered first and sorted then, with tied records in the same order: a part
of what can be sorted can be, and sorted there is one order that the ties allow.
-/

namespace Trischema

namespace Pipeline

variable {condition : Value} {records out : List Value} {es : List (Value × Value)}

/-- Whether a record matches a condition. -/
def matched (condition record : Value) : Bool := (Matching.holds record condition).toOption.getD false

theorem matched_eq {record : Value} {b : Bool} (h : Matching.holds record condition = .ok b) :
    matched condition record = b := by
  rw [matched,h]
  rfl

/-- Whether every record can be matched with a condition. -/
def CanMatch (condition : Value) (records : List Value) : Prop :=
  ∀ r ∈ records, ∃ b, Matching.holds r condition = .ok b

theorem filter_eq_ok : filter condition records = .ok out ↔
    CanMatch condition records ∧ out = records.filter (matched condition) := by
  induction records generalizing out with
  | nil =>
    rw [filter,Except.ok.injEq,eq_comm]
    exact (and_iff_right nofun).symm
  | cons r rs ih =>
    have hall : CanMatch condition (r :: rs) ↔ (∃ b, Matching.holds r condition = .ok b) ∧ CanMatch condition rs :=
      List.forall_mem_cons
    simp only [filter,bind_eq_ok,pure_eq_ok,ih,hall]
    constructor
    · rintro ⟨b,hb,rest,⟨hrest,rfl⟩,rfl⟩
      refine ⟨⟨⟨b,hb⟩,hrest⟩,?_⟩
      rw [List.filter_cons,matched_eq hb]
    · rintro ⟨⟨⟨b,hb⟩,hrest⟩,rfl⟩
      refine ⟨b,hb,_,⟨hrest,rfl⟩,?_⟩
      rw [List.filter_cons,matched_eq hb]

/-- The stage that keeps the records that match a condition. -/
def matchStage (condition : Value) : Value := .mapping [(.str "$match",condition)]

theorem run_matchStage (records : List Value) (condition : Value) (stages : List Value) :
    run records (matchStage condition :: stages) = filter condition records >>= fun kept => run kept stages := rfl

theorem run_nil : run records [] = .ok out ↔ records = out := by
  rw [run,Except.ok.injEq]

/-- Records that can be sorted and then filtered can be filtered and then sorted, with the same result. -/
theorem filter_before_sort (records : List Value) (es : List (Value × Value)) (condition : Value) (out : List Value)
    (hnumbers : ∀ e ∈ es, HasNumbers e.1 records)
    (h : run records [sortStage es,matchStage condition] = .ok out) :
    run records [matchStage condition,sortStage es] = .ok out := by
  rw [run_sortStage] at h
  obtain ⟨sorted,hsort,h⟩ := bind_eq_ok.mp h
  rw [run_matchStage] at h
  obtain ⟨kept,hfilter,h⟩ := bind_eq_ok.mp h
  obtain rfl := run_nil.mp h
  obtain ⟨hsortable,hstable⟩ := (sortOnAll_stable hnumbers).mp hsort
  obtain ⟨hmatch,rfl⟩ := filter_eq_ok.mp hfilter
  have hpart : records.filter (matched condition) ⊆ records := List.filter_subset_self _
  have hmatchable : CanMatch condition records := fun r hr => hmatch r (hstable.perm.mem_iff.mpr hr)
  have hfiltered : filter condition records = .ok (records.filter (matched condition)) :=
    filter_eq_ok.mpr ⟨hmatchable,rfl⟩
  have hsorted := (sortOnAll_stable fun e he r hr => hnumbers e he r (hpart hr)).mpr
    ⟨hsortable.subset hpart,hstable.filter (matched condition)⟩
  rw [run_matchStage,hfiltered,ok_bind,run_sortStage,hsorted,ok_bind,run_nil]

/-- A level of two or three, and another note than one. -/
def highLevels : Value := .record [("level",.record [("$in",.list [.int 2,.int 3])]),("note",.record [("$ne",.str "b")])]

theorem filter_before_sort_readings : ∃ out, run readings [sortStage byLevel,matchStage highLevels] = .ok out ∧
    run readings [matchStage highLevels,sortStage byLevel] = .ok out := by
  have hstable := isStableSort_mergeSort (byKeys (keysOf byLevel)) readings
  have hsorted := (sortOnAll_stable hasNumbers_readings).mpr ⟨canSortAll_readings,hstable⟩
  have hall : ∀ r ∈ readings, (Matching.holds r highLevels).isOk = true := by decide +kernel
  have hmatch : CanMatch highLevels readings := fun r hr => exists_ok_of_isOk (hall r hr)
  have hfiltered := filter_eq_ok.mpr ⟨fun r hr => hmatch r (hstable.perm.subset hr),rfl⟩
  have hrun : ∃ out, run readings [sortStage byLevel,matchStage highLevels] = .ok out := by
    rw [run_sortStage,hsorted,ok_bind,run_matchStage,hfiltered,ok_bind]
    exact ⟨_,rfl⟩
  obtain ⟨out,hout⟩ := hrun
  exact ⟨out,hout,filter_before_sort readings byLevel highLevels out hasNumbers_readings hout⟩

end Pipeline

end Trischema
