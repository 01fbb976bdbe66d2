import Mathlib.Data.Prod.Lex
import Mathlib.Data.String.Basic
import Trischema.Proofs.Value.Equality
import Trischema.Record.Pipeline

/-!
The places that values have when records are sorted. Nothing comes first, then numbers by their size, times by their
interchange form, and all else by its text. Sort keys are ordered as these places are, and any two of them can be
compared unless one stands for a number and the other for a time.
-/

namespace Trischema

/-- What counts of a value when it is sorted. -/
inductive Standing
  | absent
  | number (n : Number)
  | time (text : String)
  | other (text : String)

namespace Standing

/-- Nothing comes first, then numbers by their size, times by their text and all else by its text. -/
def place : Standing → ℕ ×ₗ WithBot (WithTop ℚ) ×ₗ String
  | absent => toLex (0,toLex (⊥,""))
  | number n => toLex (1,toLex (n.unrounded.size,""))
  | time s => toLex (2,toLex (⊥,s))
  | other s => toLex (3,toLex (⊥,s))

/-- The sort key of a value of which this counts. -/
def key : Standing → Value → SortKey
  | absent, _ => ⟨0,.str ""⟩
  | number _, v => ⟨1,v⟩
  | time s, _ => ⟨1,.str s⟩
  | other s, _ => ⟨2,.str s⟩

/-- Whether one of two is a number and the other a time. -/
def mixed : Standing → Standing → Bool
  | number _, time _ | time _, number _ => true
  | _, _ => false

/-- Whether it is the value that counts as a number and is none. -/
def isNan : Standing → Bool
  | number n => n.unrounded.isNan
  | _ => false

variable {s t : String}

theorem time_le : (time s).place ≤ (time t).place ↔ s ≤ t := by
  simp [place,Prod.Lex.toLex_le_toLex]

theorem other_le : (other s).place ≤ (other t).place ↔ s ≤ t := by
  simp [place,Prod.Lex.toLex_le_toLex]

theorem whole_le {m n : Int} : (number (.int m)).place ≤ (number (.int n)).place ↔ m ≤ n := by
  simp only [place,Prod.Lex.toLex_le_toLex,Number.unrounded,Binary64.size_whole,lt_irrefl,false_or,true_and,
    WithBot.coe_lt_coe,WithTop.coe_lt_coe,WithBot.coe_inj,WithTop.coe_inj,Int.cast_lt,Int.cast_inj,le_refl,and_true]
  exact le_iff_lt_or_eq.symm

theorem eq_absent_of_le {a : Standing} (h : a.place ≤ absent.place) : a = .absent := by
  cases a with
  | absent => rfl
  | number | time | other => simp [place,Prod.Lex.toLex_le_toLex] at h

end Standing

namespace Value

/-- What counts of a value: a number, unless it is a truth value or complex, a time, or what is shown of it. -/
def standing : Value → Standing
  | null => .absent
  | moment m => .time m.iso
  | date d => .time d.iso
  | bool b => .other (bool b).display
  | v =>
    match v.number? with
    | some (.complex ..) | none => .other v.display
    | some n => .number n

variable {v w : Value}

/-- The sort key of a value is that of what counts of it. -/
theorem sortKey_eq (v : Value) : v.sortKey = v.standing.key v := by
  cases v with
  | member m =>
    obtain ⟨cls,mixin,name,value⟩ := m
    cases mixin <;> first | rfl | (cases value <;> rfl)
  | _ => rfl

theorem number?_of_standing {n : Number} (h : v.standing = .number n) : v.number? = some n ∧ n.isComplex = false := by
  cases v with
  | member m =>
    obtain ⟨cls,mixin,name,value⟩ := m
    cases mixin <;> first | cases h | (cases value <;> cases h; exact ⟨rfl,rfl⟩)
  | int | float =>
    cases h
    exact ⟨rfl,rfl⟩
  | _ => cases h

theorem standing_eq_absent : v.standing = .absent ↔ v.isNull = true := by
  cases v with
  | member m =>
    obtain ⟨cls,mixin,name,value⟩ := m
    cases mixin <;> cases value <;> exact iff_of_false nofun nofun
  | null => exact iff_of_true rfl rfl
  | _ => exact iff_of_false nofun nofun

theorem order?_of_number {m n : Number} (hv : v.number? = some m) (hw : w.number? = some n)
    (hm : m.isComplex = false) (hn : n.isComplex = false) : v.order? w = some (m.compare? n) := by
  have hleaf : v.orderLeaf? w = some (m.compare? n) := by
    unfold orderLeaf?
    simp only [hv,hw,hm,hn]
    rfl
  cases v with
  | list | tuple => cases hv
  | _ => exact hleaf

theorem order?_str (s t : String) : (Value.str s).order? (.str t) = some (some (compareText s t)) := rfl

/-- A number cannot be compared with a text. -/
theorem order?_number_str {m : Number} (hv : v.number? = some m) (s : String) :
    v.order? (.str s) = none ∧ (Value.str s).order? v = none := by
  have htext := text?_of_number? hv
  have hleft : v.orderLeaf? (.str s) = none := by
    unfold orderLeaf?
    rw [hv,htext]
    cases v <;> rfl
  have hright : (Value.str s).orderLeaf? v = none := by
    unfold orderLeaf?
    rw [hv,htext]
    rfl
  refine ⟨?_,hright⟩
  cases v with
  | list | tuple => cases hv
  | _ => exact hleft

/-- Any two sort keys can be compared unless one stands for a number and the other for a time. -/
theorem comparable_eq (v w : Value) : v.sortKey.comparable w.sortKey = !v.standing.mixed w.standing := by
  rw [sortKey_eq,sortKey_eq]
  cases hv : v.standing with
  | absent | other => cases w.standing <;> rfl
  | number m =>
    obtain ⟨hm,hmreal⟩ := number?_of_standing hv
    cases hw : w.standing with
    | absent | other => rfl
    | number n =>
      obtain ⟨hn,hnreal⟩ := number?_of_standing hw
      simp [SortKey.comparable,Standing.key,Standing.mixed,order?_of_number hm hn hmreal hnreal]
    | time t => simp [SortKey.comparable,Standing.key,Standing.mixed,(order?_number_str hm t).1]
  | time s =>
    cases hw : w.standing with
    | absent | other | time => rfl
    | number n =>
      have hn := (number?_of_standing hw).1
      simp [SortKey.comparable,Standing.key,Standing.mixed,(order?_number_str hn s).2]

theorem str_before (s t : String) : (Value.str s).order? (.str t) = some (some .lt) ↔ s < t := by
  rw [order?_str,Option.some.injEq,Option.some.injEq,compareText,compareOfLessAndEq_eq_lt]

theorem number_before {m n : Number} (hv : v.standing = .number m) (hw : w.standing = .number n)
    (hm : m.unrounded.isNan = false) (hn : n.unrounded.isNan = false) :
    v.order? w = some (some .lt) ↔ m.unrounded.size < n.unrounded.size := by
  have hnumber {x : Binary64} (h : x.isNan = false) : x ≠ .nan := fun heq => by rw [heq] at h; cases h
  obtain ⟨hvn,hvreal⟩ := number?_of_standing hv
  obtain ⟨hwn,hwreal⟩ := number?_of_standing hw
  rw [order?_of_number hvn hwn hvreal hwreal,Number.compare?_eq_unrounded,
    Binary64.compare?_eq (hnumber hm) (hnumber hn),Option.some.injEq,Option.some.injEq,compare_lt_iff_lt]

/-- Sort keys are in the order of the places. -/
theorem before_iff (hv : v.standing.isNan = false) (hw : w.standing.isNan = false)
    (hmixed : v.standing.mixed w.standing = false) :
    v.sortKey.before w.sortKey = true ↔ v.standing.place < w.standing.place := by
  rw [sortKey_eq,sortKey_eq]
  simp only [SortKey.before,Bool.or_eq_true,Bool.and_eq_true,decide_eq_true_eq,beq_iff_eq]
  cases hvs : v.standing with
  | absent =>
    cases w.standing <;> simp [Standing.key,Standing.place,Prod.Lex.toLex_lt_toLex,str_before]
  | number m =>
    cases hws : w.standing with
    | number n =>
      have hsizes := number_before hvs hws (by rwa [hvs] at hv) (by rwa [hws] at hw)
      simp [Standing.key,Standing.place,Prod.Lex.toLex_lt_toLex,hsizes]
    | time =>
      rw [hvs,hws] at hmixed
      cases hmixed
    | absent | other => simp [Standing.key,Standing.place,Prod.Lex.toLex_lt_toLex]
  | time s =>
    cases hws : w.standing with
    | number n =>
      rw [hvs,hws] at hmixed
      cases hmixed
    | absent | time | other => simp [Standing.key,Standing.place,Prod.Lex.toLex_lt_toLex,str_before]
  | other s => cases w.standing <;> simp [Standing.key,Standing.place,Prod.Lex.toLex_lt_toLex,str_before]

/-- All but what is no number has a place among sort keys. -/
theorem isPlaced_of_standing (h : v.standing.isNan = false) : v.sortKey.isPlaced = true := by
  have htext (s : String) : (Value.str s).order? (.str s) = some (some .eq) := by
    rw [order?_str,compareText,compareOfLessAndEq,if_neg (lt_irrefl s),if_pos rfl]
  rw [sortKey_eq,SortKey.isPlaced,beq_iff_eq]
  cases hv : v.standing with
  | absent => exact htext ""
  | time s | other s => exact htext s
  | number n =>
    obtain ⟨hn,hreal⟩ := number?_of_standing hv
    rw [hv] at h
    rw [Standing.key,order?_of_number hn hn hreal hreal,Number.compare?_eq_unrounded,Binary64.compare?_self h]

end Value

end Trischema
