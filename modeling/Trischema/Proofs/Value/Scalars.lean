import Trischema.Proofs.Value.Equality

/-!
Equality with plain scalars. What is equal to a number, to a moment, to a date or to nothing is of its kind, and values
that are equal to one another are equal to the same of these.
-/

namespace Trischema

namespace Number

theorem compare?_int (m n : Int) : (int m).compare? (int n) = some .eq ↔ m = n := by
  simp [compare?]

/-- Numbers that are equal are equal to the same numbers. -/
theorem same_congr {m n : Number} (h : m.same n = true) (l : Number) : m.same l = n.same l := by
  rw [same,Bool.and_eq_true,beq_iff_eq,beq_iff_eq] at h
  rw [same,same,compare?_congr h.1,compare?_congr h.2]

theorem same_int_iff (m n : Int) : (int m).same (int n) = (m == n) := by
  rw [Bool.eq_iff_iff,same,Bool.and_eq_true,beq_iff_eq,beq_iff_eq,beq_iff_eq]
  exact (and_iff_left rfl).trans (compare?_int m n)

end Number

namespace Value

/-- Whether a value is absent or a plain scalar: a text, a whole number, a truth value, a moment or a date. -/
def isScalar : Value → Bool
  | null | str _ | int _ | bool _ | moment _ | date _ => true
  | _ => false

variable {v w q : Value}

theorem same_null (v : Value) : v.same .null = v.isNull := by
  cases v with
  | member m =>
    obtain ⟨cls,mixin,name,value⟩ := m
    cases mixin <;> cases value <;> rfl
  | callable c => cases c <;> rfl
  | _ => rfl

/-- What is equal to a number is a number. -/
theorem same_number {n : Number} (hq : q.number? = some n) (v : Value) : v.same q = v.number?.any (·.same n) := by
  cases hv : v.number? with
  | some m => exact same_of_number hv hq
  | none =>
    have hleaf : v.sameLeaf q = false := by simp only [sameLeaf,hv,hq]
    cases v with
    | identifier s =>
      have hother : (Value.identifier s).same q = (q.text? == some s) := by cases q <;> first | rfl | cases hq
      rw [hother,text?_of_number? hq]
      rfl
    | list | tuple | set | mapping | object | relationship => cases q <;> first | rfl | cases hq
    | _ => exact hleaf

/-- A number is equal to numbers alone. -/
theorem number_same {m : Number} (hw : w.number? = some m) (v : Value) : w.same v = v.number?.any (m.same ·) := by
  cases hv : v.number? with
  | some n => exact same_of_number hw hv
  | none =>
    have hleaf : w.sameLeaf v = false := by simp only [sameLeaf,hv,hw]
    cases w with
    | list | tuple | set | mapping | identifier | object | relationship => cases hw
    | _ => exact hleaf

theorem same_moment_iff {n : Moment} : v.same (.moment n) = true ↔ ∃ m, v = .moment m ∧ m.sameInstant n = true := by
  cases v with
  | moment m => exact ⟨fun h => ⟨m,rfl,h⟩,fun ⟨_,heq,h⟩ => by cases heq; exact h⟩
  | member m =>
    obtain ⟨cls,mixin,name,value⟩ := m
    cases mixin <;> cases value <;> exact iff_of_false Bool.false_ne_true fun ⟨_,h,_⟩ => by cases h
  | callable c => cases c <;> exact iff_of_false Bool.false_ne_true fun ⟨_,h,_⟩ => by cases h
  | _ => exact iff_of_false Bool.false_ne_true fun ⟨_,h,_⟩ => by cases h

theorem moment_same_iff {m : Moment} : (Value.moment m).same v = true ↔ ∃ n, v = .moment n ∧ m.sameInstant n = true := by
  cases v with
  | moment n => exact ⟨fun h => ⟨n,rfl,h⟩,fun ⟨_,heq,h⟩ => by cases heq; exact h⟩
  | member m =>
    obtain ⟨cls,mixin,name,value⟩ := m
    cases mixin <;> cases value <;> exact iff_of_false Bool.false_ne_true fun ⟨_,h,_⟩ => by cases h
  | _ => exact iff_of_false Bool.false_ne_true fun ⟨_,h,_⟩ => by cases h

theorem same_date_iff {d : Date} : v.same (.date d) = true ↔ v = .date d := by
  cases v with
  | date e => exact beq_iff_eq.trans ⟨congrArg _,fun h => by cases h; rfl⟩
  | member m =>
    obtain ⟨cls,mixin,name,value⟩ := m
    cases mixin <;> cases value <;> exact iff_of_false Bool.false_ne_true fun h => by cases h
  | callable c => cases c <;> exact iff_of_false Bool.false_ne_true fun h => by cases h
  | _ => exact iff_of_false Bool.false_ne_true fun h => by cases h

theorem date_same_iff {d : Date} : (Value.date d).same v = true ↔ v = .date d := by
  cases v with
  | date e => exact beq_iff_eq.trans ⟨fun h => by rw [h],fun h => by cases h; rfl⟩
  | member m =>
    obtain ⟨cls,mixin,name,value⟩ := m
    cases mixin <;> cases value <;> exact iff_of_false Bool.false_ne_true fun h => by cases h
  | _ => exact iff_of_false Bool.false_ne_true fun h => by cases h

theorem same_number_congr {k : Int} (hq : q.number? = some (.int k)) (h : w.same v = true) : w.same q = v.same q := by
  rw [same_number hq,same_number hq]
  cases hv : v.number? with
  | some n =>
    rw [same_number hv] at h
    obtain ⟨m,hm,hsame⟩ := (Option.any_eq_true _ _).mp h
    rw [hm]
    exact Number.same_congr hsame (.int k)
  | none =>
    cases hw : w.number? with
    | none => rfl
    | some m =>
      rw [number_same hw,hv] at h
      cases h

/-- Values that are equal are equal to the same scalars that are no texts. -/
theorem same_congr (h : w.same v = true) (hq : q.isScalar = true) (htext : q.text? = none) : w.same q = v.same q := by
  cases q with
  | null =>
    rw [same_null,same_null,Bool.eq_iff_iff,isNull_iff,isNull_iff]
    constructor
    · rintro rfl
      exact eq_null_of_same h
    · rintro rfl
      rwa [same_null,isNull_iff] at h
  | int n => exact same_number_congr rfl h
  | bool b => exact same_number_congr rfl h
  | moment n =>
    rw [Bool.eq_iff_iff,same_moment_iff,same_moment_iff]
    have htrans {a b : Moment} (hab : a.sameInstant b = true) : a.sameInstant n = true ↔ b.sameInstant n = true := by
      simp only [Moment.sameInstant,Moment.comparable,Bool.and_eq_true,beq_iff_eq] at hab ⊢
      rw [hab.1,hab.2]
    constructor
    · rintro ⟨m,rfl,hm⟩
      obtain ⟨l,rfl,hl⟩ := moment_same_iff.mp h
      exact ⟨l,rfl,(htrans hl).mp hm⟩
    · rintro ⟨m,rfl,hm⟩
      obtain ⟨l,rfl,hl⟩ := same_moment_iff.mp h
      exact ⟨l,rfl,(htrans hl).mpr hm⟩
  | date d =>
    rw [Bool.eq_iff_iff,same_date_iff,same_date_iff]
    constructor
    · rintro rfl
      exact date_same_iff.mp h
    · rintro rfl
      exact same_date_iff.mp h
  | str s => cases htext
  | _ => cases hq

end Value

end Trischema
