import Trischema.Proofs.Record.Sorting

/-!
How far conditions are read. What a condition asks of a record is asked in order, up to the first that does not hold, so an
operator that does not exist is noticed in a record exactly when all that stands before it holds.
-/

namespace Trischema

namespace Matching

variable {record key actual expected condition : Value} {es ops : List (Value × Value)} {e : Error} {s : String}

/-- What is checked one after the other fails at a check after some that hold. -/
theorem checks_eq_error {α : Type} {check : α → Except Error Bool} {all : List α → Except Error Bool}
    (hnil : all [] = .ok true)
    (hcons : ∀ x xs, all (x :: xs) = check x >>= fun b => if b = true then all xs else pure false) (xs : List α) :
    all xs = .error e ↔ ∃ before x after, xs = before ++ x :: after ∧ all before = .ok true ∧ check x = .error e := by
  induction xs with
  | nil =>
    refine iff_of_false (fun h => by rw [hnil] at h; cases h) ?_
    rintro ⟨before,x,after,hxs,_⟩
    exact absurd hxs.symm (List.append_ne_nil_of_right_ne_nil _ (List.cons_ne_nil _ _))
  | cons x xs ih =>
    rw [hcons,bind_eq_error]
    constructor
    · rintro (hx | ⟨b,hb,hrest⟩)
      · exact ⟨[],x,xs,rfl,hnil,hx⟩
      · cases b with
        | false => cases hrest
        | true =>
          obtain ⟨before,y,after,rfl,hbefore,hy⟩ := ih.mp hrest
          exact ⟨x :: before,y,after,rfl,by rw [hcons,hb]; exact hbefore,hy⟩
    · rintro ⟨before,y,after,hxs,hbefore,hy⟩
      cases before with
      | nil =>
        cases hxs
        exact .inl hy
      | cons first before =>
        cases hxs
        rw [hcons] at hbefore
        obtain ⟨b,hb,hbefore⟩ := bind_eq_ok.mp hbefore
        cases b with
        | false => cases hbefore
        | true => exact .inr ⟨true,hb,ih.mpr ⟨before,y,after,rfl,hbefore,hy⟩⟩

/-- Whether a name is that of no operator. -/
def IsUnknown (name : Value) : Prop := name.text?.bind Comparator.ofName? = none

/-- Whether one operator holds of a value. -/
def operatorHolds (actual : Value) (entry : Value × Value) : Except Error Bool :=
  match entry.1.text?.bind Comparator.ofName? with
  | none => .error (.value (.unsupportedOperator entry.1.display))
  | some c => c.holds actual entry.2

theorem operatorsHold_cons (actual : Value) (entry : Value × Value) (rest : List (Value × Value)) :
    operatorsHold actual (entry :: rest) =
      operatorHolds actual entry >>= fun b => if b = true then operatorsHold actual rest else pure false := by
  obtain ⟨name,operand⟩ := entry
  rw [operatorsHold,operatorHolds]
  cases name.text?.bind Comparator.ofName? <;> rfl

/-- An operator that exists is not refused as one that does not. -/
theorem holds_ne_unsupported (c : Comparator) (actual operand : Value) :
    c.holds actual operand ≠ .error (.value (.unsupportedOperator s)) := by
  have hordered (accept : Ordering → Bool) : actual.ordered accept operand ≠ .error (.value (.unsupportedOperator s)) := by
    unfold Value.ordered
    split
    · exact nofun
    · split <;> exact nofun
  have hisIn : actual.isIn operand ≠ .error (.value (.unsupportedOperator s)) := by
    unfold Value.isIn
    split
    · split <;> exact nofun
    · exact nofun
    · exact nofun
    · split
      · exact nofun
      · split <;> exact nofun
    · split <;> exact nofun
    · unfold Value.isInBytes
      split
      · exact nofun
      · split <;> exact nofun
      · exact nofun
    · exact nofun
  cases c with
  | eq | ne => exact nofun
  | gt | gte | lt | lte => exact hordered _
  | isIn => exact hisIn
  | isNotIn => exact fun h => hisIn (map_eq_error.mp h)

theorem operatorsHold_unsupported :
    operatorsHold actual ops = .error (.value (.unsupportedOperator s)) ↔
      ∃ before name operand after, ops = before ++ (name,operand) :: after ∧ operatorsHold actual before = .ok true ∧
        IsUnknown name ∧ s = name.display := by
  rw [checks_eq_error rfl (operatorsHold_cons actual)]
  constructor
  · rintro ⟨before,⟨name,operand⟩,after,rfl,hbefore,herror⟩
    rw [operatorHolds] at herror
    split at herror
    · rename_i hname
      cases herror
      exact ⟨before,name,operand,after,rfl,hbefore,hname,rfl⟩
    · exact absurd herror (holds_ne_unsupported _ _ _)
  · rintro ⟨before,name,operand,after,rfl,hbefore,hname,rfl⟩
    refine ⟨before,(name,operand),after,rfl,hbefore,?_⟩
    rw [operatorHolds,show name.text?.bind Comparator.ofName? = none from hname]

theorem allOperators_cons {name : String} (h : name.startsWith "$" = true) {operand : Value} :
    allOperators ((.str name,operand) :: ops) = allOperators ops := if_pos h

theorem allOperators_ne_unsupported (ops : List (Value × Value)) :
    allOperators ops ≠ .error (.value (.unsupportedOperator s)) := by
  induction ops with
  | nil => exact nofun
  | cons entry rest ih =>
    obtain ⟨name,operand⟩ := entry
    unfold allOperators
    split
    · split
      · exact ih
      · exact nofun
    · exact nofun
    · exact nofun

theorem plain_ne_error : expectationHolds.plain actual expected ≠ .error e := by
  unfold expectationHolds.plain
  split <;> exact nofun

theorem expectationHolds_mapping (actual : Value) (entry : Value × Value) (rest : List (Value × Value)) :
    expectationHolds actual (.mapping (entry :: rest)) = allOperators (entry :: rest) >>= fun all =>
      if all = true then operatorsHold actual (entry :: rest)
      else expectationHolds.plain actual (.mapping (entry :: rest)) := by
  rw [expectationHolds]
  dsimp only
  refine bind_congr fun all => ?_
  cases all with
  | true => rfl
  | false =>
    change (expectationHolds.plain actual (.mapping (entry :: rest)) >>= pure) =
      expectationHolds.plain actual (.mapping (entry :: rest))
    rw [bind_pure]

theorem expectationHolds_plain (h : ∀ entry rest, expected ≠ .mapping (entry :: rest)) :
    expectationHolds actual expected = expectationHolds.plain actual expected := by
  unfold expectationHolds
  split
  · rename_i entry rest
    exact absurd rfl (h entry rest)
  · exact bind_pure _

theorem expectationHolds_unsupported :
    expectationHolds actual expected = .error (.value (.unsupportedOperator s)) ↔
      ∃ ops, expected = .mapping ops ∧ allOperators ops = .ok true ∧
        operatorsHold actual ops = .error (.value (.unsupportedOperator s)) := by
  constructor
  · intro h
    by_cases hplain : ∀ entry rest, expected ≠ .mapping (entry :: rest)
    · rw [expectationHolds_plain hplain] at h
      exact absurd h plain_ne_error
    · push Not at hplain
      obtain ⟨entry,rest,rfl⟩ := hplain
      rw [expectationHolds_mapping] at h
      rcases bind_eq_error.mp h with h | ⟨all,hall,h⟩
      · exact absurd h (allOperators_ne_unsupported _)
      · cases all with
        | true => exact ⟨_,rfl,hall,h⟩
        | false => exact absurd h plain_ne_error
  · rintro ⟨ops,rfl,hall,herror⟩
    cases ops with
    | nil => cases herror
    | cons entry rest =>
      rw [expectationHolds_mapping,hall]
      exact herror

/-- The expectation of a condition about one key. -/
def entryHolds (record : Value) (entry : Value × Value) : Except Error Bool :=
  fieldOf record entry.1 >>= fun actual => expectationHolds actual entry.2

theorem entriesHold_cons (record : Value) (entry : Value × Value) (rest : List (Value × Value)) :
    entriesHold record (entry :: rest) =
      entryHolds record entry >>= fun b => if b = true then entriesHold record rest else pure false := by
  rw [entriesHold,entryHolds,bind_assoc]

/-- Whether a record is compared as far as a certain operator: all that a condition asks before it, of other keys and of
the same key, holds of the record. -/
inductive Reaches (record : Value) : Value → Value → Prop
  | intro (fields es : List (Value × Value)) (key : Value) (ops : List (Value × Value)) (name operand : Value)
      (opsAfter esAfter : List (Value × Value)) (hrecord : record = .mapping fields)
      (hall : allOperators (ops ++ (name,operand) :: opsAfter) = .ok true)
      (hes : entriesHold record es = .ok true) (hops : operatorsHold (Pipeline.valueAt key record) ops = .ok true) :
    Reaches record (.mapping (es ++ (key,.mapping (ops ++ (name,operand) :: opsAfter)) :: esAfter)) name

/-- An operator that does not exist is noticed in a record that is compared as far as it. -/
theorem holds_unsupported : holds record condition = .error (.value (.unsupportedOperator s)) ↔
    ∃ name, Reaches record condition name ∧ IsUnknown name ∧ s = name.display := by
  constructor
  · intro h
    cases condition with
    | mapping es =>
      obtain ⟨before,⟨key,expected⟩,after,rfl,hbefore,h⟩ :=
        (checks_eq_error rfl (entriesHold_cons record) es).mp h
      rcases bind_eq_error.mp h with hfield | ⟨actual,hactual,h⟩
      · unfold fieldOf at hfield
        split at hfield <;> cases hfield
      · obtain ⟨⟨fields,hrecord⟩,rfl⟩ := Pipeline.exists_mapping_of_fieldOf hactual
        obtain ⟨ops,hops,hall,herror⟩ := expectationHolds_unsupported.mp h
        obtain ⟨first,name,operand,rest,rfl,hfirst,hname,hs⟩ := operatorsHold_unsupported.mp herror
        obtain rfl : expected = .mapping _ := hops
        exact ⟨name,.intro fields before key first name operand rest after hrecord hall hbefore hfirst,hname,hs⟩
    | _ => cases h
  · rintro ⟨name,hreaches,hname,rfl⟩
    cases hreaches with
    | intro fields es key ops _ operand opsAfter esAfter hrecord hall hes hops =>
      subst hrecord
      refine (checks_eq_error rfl (entriesHold_cons (.mapping fields)) _).mpr ⟨es,_,esAfter,rfl,hes,?_⟩
      rw [entryHolds,Pipeline.fieldOf_mapping,ok_bind]
      refine expectationHolds_unsupported.mpr ⟨_,rfl,hall,?_⟩
      exact operatorsHold_unsupported.mpr ⟨ops,name,operand,opsAfter,rfl,hops,hname,rfl⟩

end Matching

end Trischema
