import Trischema.Proofs.Record.Filtering
import Trischema.Proofs.Record.Mixing
import Trischema.Proofs.Record.Reading

/-!
Defects of pipelines. A stage that has no form, is unknown or gives a direction that is none is refused on all records. An
operator that does not exist is noticed only where a record is compared as far as it.
-/

namespace Trischema

namespace Pipeline

open Matching (IsUnknown Reaches)

variable {condition stage : Value} {fault : ValueFault} {records out : List Value} {es : List (Value × Value)} {e : Error}

/-- A filter fails at a record that cannot be matched, after some that can. -/
theorem filter_eq_error : filter condition records = .error e ↔
    ∃ before r after, records = before ++ r :: after ∧ CanMatch condition before ∧
      Matching.holds r condition = .error e := by
  induction records with
  | nil =>
    refine iff_of_false (fun h => by cases h) ?_
    rintro ⟨before,r,after,hrecords,_⟩
    exact absurd hrecords.symm (List.append_ne_nil_of_right_ne_nil _ (List.cons_ne_nil _ _))
  | cons r rs ih =>
    rw [filter,bind_eq_error]
    constructor
    · rintro (h | ⟨b,hb,h⟩)
      · exact ⟨[],r,rs,rfl,List.forall_mem_nil _,h⟩
      · rcases bind_eq_error.mp h with h | ⟨_,_,h⟩
        · obtain ⟨before,r',after,rfl,hbefore,herror⟩ := ih.mp h
          exact ⟨r :: before,r',after,rfl,List.forall_mem_cons.mpr ⟨⟨b,hb⟩,hbefore⟩,herror⟩
        · cases h
    · rintro ⟨before,r',after,hrecords,hbefore,herror⟩
      cases before with
      | nil =>
        cases hrecords
        exact .inl herror
      | cons first before =>
        cases hrecords
        obtain ⟨⟨b,hb⟩,hbefore⟩ := List.forall_mem_cons.mp hbefore
        refine .inr ⟨b,hb,?_⟩
        rw [ih.mpr ⟨before,r',after,rfl,hbefore,herror⟩]
        rfl

theorem orderOf_eq_error {key v : Value} :
    orderOf key v = .error e ↔ ¬IsDirection v ∧ e = .value (.sortOrder key) := by
  rw [orderOf,IsDirection,not_or]
  by_cases hup : v.same (.int 1) = true
  · rw [if_pos hup]
    exact iff_of_false (fun h => by cases h) fun h => h.1.1 hup
  rw [if_neg hup]
  by_cases hdown : v.same (.int (-1)) = true
  · rw [if_pos hdown]
    exact iff_of_false (fun h => by cases h) fun h => h.1.2 hdown
  · rw [if_neg hdown,Except.error.injEq,eq_comm]
    exact (and_iff_right ⟨hup,hdown⟩).symm

theorem sortOn_ne_value {key : Value} {order : SortOrder} : sortOn key order records ≠ .error (.value fault) := by
  intro h
  rcases bind_eq_error.mp h with h | ⟨keyed,_,h⟩
  · obtain ⟨r,_,h⟩ := exists_of_mapM_error h
    rcases bind_eq_error.mp h with h | ⟨_,_,h⟩
    · unfold Matching.fieldOf at h
      split at h <;> cases h
    · cases h
  · rcases bind_eq_error.mp h with h | ⟨_,_,h⟩
    · unfold sortBy at h
      split at h <;> cases h
    · cases h

/-- What is no direction is noticed where the records can be sorted by all later keys. -/
theorem sortOnAll_order {key : Value} : sortOnAll records es = .error (.value (.sortOrder key)) ↔
    ∃ before v after, es = before ++ (key,v) :: after ∧ ¬IsDirection v ∧ CanSortAll records after := by
  rw [sortOnAll_eq_error]
  constructor
  · rintro ⟨before,key',v,after,sorted,rfl,hsorted,h⟩
    rcases bind_eq_error.mp h with h | ⟨order,_,h⟩
    · obtain ⟨hv,hkey⟩ := orderOf_eq_error.mp h
      cases hkey
      exact ⟨before,v,after,rfl,hv,(sortOnAll_perm hsorted).1⟩
    · exact absurd h sortOn_ne_value
  · rintro ⟨before,v,after,rfl,hv,hafter⟩
    obtain ⟨sorted,hsorted,_⟩ := exists_sortOnAll hafter
    exact ⟨before,key,v,after,sorted,rfl,hsorted,bind_eq_error.mpr (.inl (orderOf_eq_error.mpr ⟨hv,rfl⟩))⟩

/-- The operators of stages. -/
def stageNames : List String := ["$match","$sort","$skip","$limit"]

/-- What is wrong with a stage in itself, whatever the records are. -/
inductive Defect : Value → ValueFault → Prop
  | shape (stage : Value) (h : ∀ op arg, stage ≠ .mapping [(op,arg)]) : Defect stage (.stageShape stage)
  | stage (op arg : Value) (h : ∀ name ∈ stageNames, op.text? ≠ some name) :
    Defect (.mapping [(op,arg)]) (.unsupportedStage op)
  | direction (op : Value) (es : List (Value × Value)) (key v : Value) (hop : op.text? = some "$sort")
      (hentry : (key,v) ∈ es) (hv : ¬IsDirection v) : Defect (.mapping [(op,.mapping es)]) (.sortOrder key)
  | operator (op : Value) (es : List (Value × Value)) (key : Value) (ops : List (Value × Value)) (name operand : Value)
      (hop : op.text? = some "$match") (hentry : (key,.mapping ops) ∈ es) (hall : Matching.allOperators ops = .ok true)
      (hname : (name,operand) ∈ ops) (hunknown : IsUnknown name) :
    Defect (.mapping [(op,.mapping es)]) (.unsupportedOperator name.display)

/-- Whether records show a defect of the stage that is applied to them: directions are read from the last key to the
first, and operators in the first record that is compared as far as them. -/
inductive Shows (records : List Value) : Value → ValueFault → Prop
  | shape (stage : Value) : Shows records stage (.stageShape stage)
  | stage (op arg : Value) : Shows records (.mapping [(op,arg)]) (.unsupportedStage op)
  | direction (op : Value) (before : List (Value × Value)) (key v : Value) (after : List (Value × Value))
      (hv : ¬IsDirection v) (hafter : CanSortAll records after) :
    Shows records (.mapping [(op,.mapping (before ++ (key,v) :: after))]) (.sortOrder key)
  | operator (op condition : Value) (before : List Value) (r : Value) (after : List Value) (name : Value)
      (hrecords : records = before ++ r :: after) (hbefore : CanMatch condition before)
      (hreaches : Reaches r condition name) (hunknown : IsUnknown name) :
    Shows records (.mapping [(op,condition)]) (.unsupportedOperator name.display)

theorem applyStage_sort {op : Value} (hop : op.text? = some "$sort") (es : List (Value × Value)) (records : List Value) :
    applyStage (.mapping [(op,.mapping es)]) records = sortOnAll records es := by
  unfold applyStage
  dsimp only
  rw [hop]
  rfl

theorem applyStage_match {op : Value} (hop : op.text? = some "$match") (condition : Value) (records : List Value) :
    applyStage (.mapping [(op,condition)]) records = filter condition records := by
  unfold applyStage
  dsimp only
  rw [hop]
  rfl

/-- A stage is refused for a defect where the records show it. -/
theorem applyStage_defect (hdefect : Defect stage fault) :
    applyStage stage records = .error (.value fault) ↔ Shows records stage fault := by
  cases hdefect with
  | shape _ h =>
    refine iff_of_true ?_ (.shape stage)
    unfold applyStage
    split
    · rename_i op arg
      exact absurd rfl (h op arg)
    · rfl
  | stage op arg h =>
    refine iff_of_true ?_ (.stage op arg)
    have hnames := h
    simp only [stageNames,List.forall_mem_cons,List.not_mem_nil,false_implies,implies_true,and_true] at hnames
    obtain ⟨hmatch,hsort,hskip,hlimit⟩ := hnames
    unfold applyStage
    dsimp only
    split
    · exact absurd ‹_› hmatch
    · exact absurd ‹_› hsort
    · exact absurd ‹_› hskip
    · exact absurd ‹_› hlimit
    · rfl
  | direction op es key v hop hentry hv =>
    rw [applyStage_sort hop,sortOnAll_order]
    constructor
    · rintro ⟨before,v',after,rfl,hv',hafter⟩
      exact .direction op before key v' after hv' hafter
    · intro hshows
      cases hshows with
      | direction _ before _ v' after hv' hafter => exact ⟨before,v',after,rfl,hv',hafter⟩
  | operator op es key ops name operand hop hentry hall hname hunknown =>
    rw [applyStage_match hop,filter_eq_error]
    constructor
    · rintro ⟨before,r,after,hrecords,hbefore,h⟩
      obtain ⟨name',hreaches,hunknown',hdisplay⟩ := Matching.holds_unsupported.mp h
      rw [hdisplay]
      exact .operator op _ before r after name' hrecords hbefore hreaches hunknown'
    · generalize hs : name.display = s
      intro hshows
      cases hshows with
      | operator _ _ before r after name' hrecords hbefore hreaches hunknown' =>
        exact ⟨before,r,after,hrecords,hbefore,Matching.holds_unsupported.mpr ⟨name',hreaches,hunknown',rfl⟩⟩

/-- A stage with a defect is never applied to the end, but where the defect is an operator of a condition. -/
theorem applyStage_refused (hdefect : Defect stage fault) (hfault : ∀ s, fault ≠ .unsupportedOperator s) :
    applyStage stage records ≠ .ok out := by
  cases hdefect with
  | shape _ h =>
    rw [(applyStage_defect (.shape stage h)).mpr (.shape stage)]
    exact fun h => by cases h
  | stage op arg h =>
    rw [(applyStage_defect (.stage op arg h)).mpr (.stage op arg)]
    exact fun h => by cases h
  | direction op es key v hop hentry hv =>
    rw [applyStage_sort hop]
    exact fun h => hv ((sortOnAll_perm h).1 (key,v) hentry).1
  | operator => exact absurd rfl (hfault _)

theorem run_append (records xs ys : List Value) : run records (xs ++ ys) = run records xs >>= fun mid => run mid ys := by
  induction xs generalizing records with
  | nil => rfl
  | cons x xs ih =>
    rw [List.cons_append,run,run,bind_assoc]
    exact bind_congr fun mid => ih mid

/-- A defect of a stage is found, unless an earlier stage failed, where the records that come out of the earlier stages
show it. On no records is a stage accepted that has no form, is unknown or gives a direction that is none. -/
theorem defect_shown (hdefect : Defect stage fault) (before after records : List Value) :
    (∀ e, run records before = .error e → run records (before ++ stage :: after) = .error e) ∧
    ∀ mid, run records before = .ok mid →
      (run records (before ++ [stage]) = .error (.value fault) ↔ Shows mid stage fault) ∧
      (Shows mid stage fault → run records (before ++ stage :: after) = .error (.value fault)) ∧
      ((∀ s, fault ≠ .unsupportedOperator s) → ∃ e, run records (before ++ stage :: after) = .error e) := by
  refine ⟨fun e he => ?_,fun mid hmid => ⟨?_,fun hshows => ?_,fun hfault => ?_⟩⟩
  · rw [run_append,he]
    rfl
  · have hrun : run mid [stage] = applyStage stage mid := bind_pure _
    rw [run_append,hmid,ok_bind,hrun]
    exact applyStage_defect hdefect
  · rw [run_append,hmid,ok_bind,run,(applyStage_defect hdefect).mpr hshows]
    rfl
  · cases hstage : applyStage stage mid with
    | ok out => exact absurd hstage (applyStage_refused hdefect hfault)
    | error e =>
      refine ⟨e,?_⟩
      rw [run_append,hmid,ok_bind,run,hstage]
      rfl

/-- A level above one that has a form; there is no operator for forms. -/
def formed : Value := .record [("level",.record [("$gt",.int 1),("$regex",.str "2")])]

/-- A record with a level. -/
def levelled (n : Int) : Value := .record [("level",.int n)]

/-- The stage that keeps the first record. -/
def firstOnly : Value := .record [("$limit",.int 1)]

theorem formed_operators : Matching.allOperators [(.str "$gt",.int 1),(.str "$regex",.str "2")] = .ok true :=
  (Matching.allOperators_cons (by decide +kernel)).trans (Matching.allOperators_cons (by decide +kernel))

theorem defect_formed : Defect (matchStage formed) (.unsupportedOperator "$regex") :=
  .operator (.str "$match") _ (.str "level") [(.str "$gt",.int 1),(.str "$regex",.str "2")] (.str "$regex") (.str "2") rfl
    List.mem_cons_self formed_operators (List.mem_cons_of_mem _ List.mem_cons_self) rfl

/-- A record above the level shows that there is no operator for forms. -/
theorem shows_formed (rest : List Value) :
    Shows (levelled 2 :: rest) (matchStage formed) (.unsupportedOperator "$regex") := by
  refine .operator (.str "$match") formed [] _ rest (.str "$regex") rfl (List.forall_mem_nil _) ?_ rfl
  exact .intro _ [] (.str "level") [(.str "$gt",.int 1)] (.str "$regex") (.str "2") [] [] rfl formed_operators rfl rfl

theorem defect_shown_levels : run [levelled 2,levelled 1] [firstOnly,matchStage formed] =
    .error (.value (.unsupportedOperator "$regex")) :=
  ((defect_shown defect_formed [firstOnly] [] [levelled 2,levelled 1]).2 _ rfl).2.1 (shows_formed _)

/-- The operator for forms is refused in a record above the level, and accepted in one that is not and in no record. -/
theorem defect_unshown : run [levelled 2] [matchStage formed] = .error (.value (.unsupportedOperator "$regex")) ∧
    run [levelled 1] [matchStage formed] = .ok [] ∧ run [] [matchStage formed] = .ok [] := by
  refine ⟨?_,?_,rfl⟩
  · rw [run,(applyStage_defect defect_formed).mpr (shows_formed _)]
    rfl
  · have hkept : (run [levelled 1] [matchStage formed]).toOption.any List.isEmpty = true := by
      decide +kernel
    obtain ⟨out,hout,hempty⟩ := exists_ok_of_any hkept
    rw [hout,List.isEmpty_iff.mp hempty]

end Pipeline

end Trischema
