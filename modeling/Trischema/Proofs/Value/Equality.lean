import Mathlib.Data.List.Perm.Subperm
import Trischema.Proofs.Table.Rows
import Trischema.Value.Equality

/-!
Equality of plain values. Which of two plain values is compared with the other makes no difference.
-/

namespace Trischema

namespace Number

theorem same_comm (m n : Number) : m.same n = n.same m := by
  rw [Bool.eq_iff_iff]
  simp only [same,Bool.and_eq_true,beq_iff_eq]
  rw [compare?_comm m.parts.1,compare?_comm m.parts.2]

/-- A number whose parts are equal to themselves is equal to itself; one that is no number is not. -/
theorem same_self {n : Number} (hreal : n.parts.1.compare? n.parts.1 = some .eq)
    (himaginary : n.parts.2.compare? n.parts.2 = some .eq) : n.same n = true := by
  rw [same,hreal,himaginary]
  rfl

theorem same_int (n : Int) : (int n).same (int n) = true := same_self (by simp [compare?,parts]) rfl

end Number

theorem Moment.sameInstant_comm (m n : Moment) : m.sameInstant n = n.sameInstant m := by
  simp only [sameInstant,comparable,Bool.beq_comm]

mutual

/-- Whether a value is plain data: numbers, texts, bytes, times, members of constant sets, and sequences and
dictionaries of these whose keys are different texts. -/
def Value.isPlain : Value → Bool
  | .list xs | .tuple xs => allPlain xs
  | .mapping es => entriesPlain es && decide (es.map (·.1.text?)).Nodup
  | .set _ | .object _ | .type _ | .callable _ | .relationship _ => false
  | _ => true

def allPlain : List Value → Bool
  | [] => true
  | x :: xs => x.isPlain && allPlain xs

def entriesPlain : List (Value × Value) → Bool
  | [] => true
  | (.str _, v) :: es => v.isPlain && entriesPlain es
  | _ :: _ => false

end

namespace TypeExpr

variable {t u : TypeExpr Value}

theorem alike_iff : t.alike u = true ↔ t.listing = u.listing ∧ t.classNames = u.classNames := by
  rw [alike,Bool.and_eq_true,beq_iff_eq,beq_iff_eq]

theorem alike_comm (t u : TypeExpr Value) : t.alike u = u.alike t := by
  rw [alike,alike,Bool.beq_comm (a := t.listing),Bool.beq_comm (a := t.classNames)]

theorem alike_trans {w : TypeExpr Value} (h : t.alike u = true) (h' : u.alike w = true) : t.alike w = true := by
  rw [alike_iff] at *
  exact ⟨h.1.trans h'.1,h.2.trans h'.2⟩

end TypeExpr

namespace Value

theorem sameAtom_comm (a b : Value) : a.sameAtom b = b.sameAtom a := by
  have hcallable (c : Callable Value) (v : Value) : v.sameAtom (callable c) = (callable c).sameAtom v := by
    cases v with
    | callable d => cases c <;> cases d <;> rfl
    | _ => cases c <;> rfl
  cases a with
  | bytes s => cases b <;> first | rfl | exact Bool.beq_comm (a := s) | exact hcallable _ _
  | date d => cases b <;> first | rfl | exact Bool.beq_comm (a := d) | exact hcallable _ _
  | moment m => cases b <;> first | rfl | exact m.sameInstant_comm _ | exact hcallable _ _
  | member m =>
    cases b <;> first | rfl | simp only [sameAtom,Bool.beq_comm (a := m.owner),Bool.beq_comm (a := m.name)]
  | type t => cases b <;> first | rfl | exact t.alike_comm _ | exact hcallable _ _
  | callable c => exact (hcallable c b).symm
  | _ => cases b <;> first | rfl | exact hcallable _ _

theorem sameLeaf_comm {a b : Value} (ha : ∀ s, a ≠ .identifier s) (hb : ∀ s, b ≠ .identifier s) :
    a.sameLeaf b = b.sameLeaf a := by
  unfold sameLeaf
  rcases a.number? with _ | m <;> rcases b.number? with _ | n <;> dsimp only
  · rcases a.text? with _ | s <;> rcases b.text? with _ | t <;> dsimp only
    · exact a.sameAtom_comm b
    · cases a <;> first | rfl | exact absurd rfl (ha _)
    · cases b <;> first | rfl | exact absurd rfl (hb _)
    · exact Bool.beq_comm
  · exact m.same_comm n

theorem sameContent_comm (a b : Value) : a.sameContent b = b.sameContent a := by
  unfold sameContent
  rcases a.number? with _ | m <;> rcases b.number? with _ | n <;> dsimp only
  · exact a.sameAtom_comm b
  · exact m.same_comm n

theorem isNull_iff {v : Value} : v.isNull = true ↔ v = .null := by
  cases v <;> simp [isNull]

theorem eq_null_of_same {v : Value} (h : Value.null.same v = true) : v = .null := by
  change Value.null.sameLeaf v = true at h
  revert h
  unfold sameLeaf
  rcases v.number? with _ | n
  · rcases v.text? with _ | t
    · cases v <;> exact fun h => by first | rfl | exact absurd h Bool.false_ne_true
    · exact fun h => absurd h Bool.false_ne_true
  · exact fun h => absurd h Bool.false_ne_true

theorem text?_of_number? {v : Value} {n : Number} (h : v.number? = some n) : v.text? = none := by
  cases v with
  | member m =>
    obtain ⟨cls,mixin,name,value⟩ := m
    cases mixin <;> first | rfl | (cases value <;> cases h)
  | _ => first | rfl | cases h

theorem number?_of_text? {v : Value} {s : String} (h : v.text? = some s) : v.number? = none := by
  cases hn : v.number? with
  | none => rfl
  | some n =>
    rw [text?_of_number? hn] at h
    cases h

theorem word?_iff {v : Value} {s : String} : v.word? = some s ↔ v.text? = some s ∨ v = identifier s := by
  cases v with
  | identifier t => simp [word?,text?]
  | _ => exact (or_iff_left nofun).symm

/-- Numbers are equal as values where they are as numbers. -/
theorem same_of_number {v w : Value} {m n : Number} (hv : v.number? = some m) (hw : w.number? = some n) :
    v.same w = m.same n := by
  have hleaf : v.sameLeaf w = m.same n := by simp only [sameLeaf,hv,hw]
  cases v with
  | list | tuple | set | mapping | identifier | object | relationship => cases hv
  | _ => exact hleaf

/-- An identifier is equal to itself and to its text, from both sides. -/
theorem same_identifier {s : String} {b : Value} (hb : b.isPlain = true) :
    b.same (.identifier s) = (Value.identifier s).same b := by
  have hleaf : b.sameLeaf (.identifier s) = (b.text? == some s) := by
    unfold sameLeaf
    rcases hn : b.number? with _ | n
    · rcases b.text? with _ | t
      · cases b <;> first | rfl | exact absurd hb Bool.false_ne_true
      · rfl
    · rw [text?_of_number? hn]
      rfl
  cases b with
  | identifier t => exact Bool.beq_comm
  | list xs | tuple xs | mapping es => rfl
  | set xs | object o | type t | callable c | relationship r => cases hb
  | _ => exact hleaf

/-- Whether a value is a sequence or a dictionary. -/
def isContainer : Value → Bool
  | list _ | tuple _ | mapping _ => true
  | _ => false

/-- Nothing else is equal to a container. -/
theorem same_container {a c : Value} (hc : c.isContainer = true) (ha : a.isPlain = true)
    (hleaf : a.isContainer = false) : a.same c = c.same a := by
  have hnone : a.sameLeaf c = false := by
    unfold sameLeaf
    rcases a.number? with _ | m <;> rcases a.text? with _ | s
    · cases c <;> first
        | exact absurd hc Bool.false_ne_true
        | (cases a <;> first | rfl | exact absurd ha Bool.false_ne_true)
    all_goals cases c <;> first | rfl | exact absurd hc Bool.false_ne_true
  cases a with
  | list | tuple | mapping => cases hleaf
  | set | object | type | callable | relationship => cases ha
  | identifier s => cases c <;> first | rfl | cases hc
  | _ => cases c <;> first | exact hnone | cases hc

theorem same_str (s t : String) : (Value.str s).same (.str t) = true ↔ s = t := beq_iff_eq

theorem samePlace_filedBytes (bs : List UInt8) : (filedBytes bs).samePlace (filedBytes bs) = true := by
  unfold filedBytes
  split
  · rfl
  · exact beq_self_eq_true bs

theorem filing_of_text? {v : Value} {s : String} (h : v.text? = some s) : v.filing = filedBytes (packed s) := by
  cases v with
  | str t =>
    cases h
    rfl
  | member m =>
    obtain ⟨cls,mixin,name,value⟩ := m
    cases mixin <;> cases value <;> cases h
    rfl
  | _ => cases h

theorem sameKey_str (s t : String) : (Value.str s).sameKey (.str t) = true ↔ s = t := by
  rw [sameKey,Bool.and_eq_true,same_str]
  refine and_iff_left_of_imp fun h => ?_
  rw [h]
  exact samePlace_filedBytes (packed t)

end Value

theorem entriesAmong_iff {es fs : List (Value × Value)} :
    entriesAmong es fs = true ↔ ∀ e ∈ es, ∃ f ∈ fs, e.1.sameKey f.1 = true ∧ e.2.same f.2 = true := by
  induction es with
  | nil => simp [entriesAmong]
  | cons e es ih => simp [entriesAmong,ih,Value.sameKey]

theorem entriesPlain_iff {es : List (Value × Value)} :
    entriesPlain es = true ↔ ∀ e ∈ es, (∃ s, e.1 = .str s) ∧ e.2.isPlain = true := by
  induction es with
  | nil => simp [entriesPlain]
  | cons e es ih =>
    obtain ⟨k,v⟩ := e
    cases k <;> simp [entriesPlain,ih]

/-- Of two dictionaries of one size, whose keys are different texts, each is found in the other or neither. -/
theorem entriesAmong_swap {es fs : List (Value × Value)} (hes : ∀ e ∈ es, ∃ s, e.1 = .str s)
    (hfs : ∀ f ∈ fs, ∃ s, f.1 = .str s) (hdistinct : (es.map (·.1.text?)).Nodup)
    (hdistinct' : (fs.map (·.1.text?)).Nodup) (hlength : es.length = fs.length)
    (hcomm : ∀ e ∈ es, ∀ f ∈ fs, e.2.same f.2 = f.2.same e.2) (h : entriesAmong es fs = true) :
    entriesAmong fs es = true := by
  rw [entriesAmong_iff] at h ⊢
  have hkey : ∀ e ∈ es, ∀ f ∈ fs, e.1.sameKey f.1 = true → e.1.text? = f.1.text? := by
    intro e he f hf hsame
    obtain ⟨s,hs⟩ := hes e he
    obtain ⟨t,ht⟩ := hfs f hf
    rw [hs,ht,Value.sameKey_str] at hsame
    rw [hs,ht,hsame]
  have hsubset : es.map (·.1.text?) ⊆ fs.map (·.1.text?) := by
    intro k hk
    obtain ⟨e,he,rfl⟩ := List.mem_map.mp hk
    obtain ⟨f,hf,hsame,_⟩ := h e he
    exact List.mem_map.mpr ⟨f,hf,(hkey e he f hf hsame).symm⟩
  -- as many different keys, and none missing from the other side: the keys are the same
  have hperm : (es.map (·.1.text?)).Perm (fs.map (·.1.text?)) :=
    (hdistinct.subperm hsubset).perm_of_length_le (by simp [hlength])
  intro f hf
  obtain ⟨e,he,hek⟩ := List.mem_map.mp (hperm.mem_iff.mpr (List.mem_map_of_mem hf))
  obtain ⟨f',hf',hsame,hvalue⟩ := h e he
  have hff : f' = f := List.inj_on_of_nodup_map hdistinct' hf' hf ((hkey e he f' hf' hsame).symm.trans hek)
  subst hff
  refine ⟨e,he,?_,by rwa [← hcomm e he f' hf]⟩
  obtain ⟨s,hs⟩ := hes e he
  obtain ⟨t,ht⟩ := hfs f' hf
  rw [hs,ht,Value.sameKey_str] at hsame ⊢
  exact hsame.symm

theorem sameEntries_comm {es fs : List (Value × Value)} (hes : entriesPlain es = true) (hfs : entriesPlain fs = true)
    (hdistinct : (es.map (·.1.text?)).Nodup) (hdistinct' : (fs.map (·.1.text?)).Nodup)
    (hcomm : ∀ e ∈ es, ∀ f ∈ fs, e.2.same f.2 = f.2.same e.2) :
    (Value.mapping es).same (.mapping fs) = (Value.mapping fs).same (.mapping es) := by
  rw [entriesPlain_iff] at hes hfs
  have hkeys := fun e he => (hes e he).1
  have hkeys' := fun f hf => (hfs f hf).1
  rw [Bool.eq_iff_iff]
  change (es.length == fs.length && entriesAmong es fs) = true ↔ (fs.length == es.length && entriesAmong fs es) = true
  simp only [Bool.and_eq_true,beq_iff_eq]
  constructor
  · rintro ⟨hlength,h⟩
    exact ⟨hlength.symm,entriesAmong_swap hkeys hkeys' hdistinct hdistinct' hlength hcomm h⟩
  · rintro ⟨hlength,h⟩
    exact ⟨hlength.symm,entriesAmong_swap hkeys' hkeys hdistinct' hdistinct hlength
      (fun f hf e he => (hcomm e he f hf).symm) h⟩

namespace Value

/-- Plain values that are no containers are equal from both sides. -/
theorem same_leaf_comm {a b : Value} (ha : a.isPlain = true) (hb : b.isPlain = true) (hleaf : a.isContainer = false)
    (hleaf' : b.isContainer = false) : a.same b = b.same a := by
  by_cases hident : ∃ s, b = .identifier s
  · obtain ⟨s,rfl⟩ := hident
    exact same_identifier ha
  by_cases hident' : ∃ s, a = .identifier s
  · obtain ⟨s,rfl⟩ := hident'
    exact (same_identifier hb).symm
  have hsame {v w : Value} (hv : v.isPlain = true) (hv' : v.isContainer = false) (hno : ¬∃ s, v = .identifier s) :
      v.same w = v.sameLeaf w := by
    cases v with
    | identifier s => exact absurd ⟨s,rfl⟩ hno
    | list | tuple | mapping => cases hv'
    | set | object | type | callable | relationship => cases hv
    | _ => rfl
  rw [hsame ha hleaf hident',hsame hb hleaf' hident]
  exact sameLeaf_comm (fun s h => hident' ⟨s,h⟩) (fun s h => hident ⟨s,h⟩)

end Value

mutual

/-- It makes no difference which of two plain values is compared with the other. -/
theorem Value.same_comm {a b : Value} (ha : a.isPlain = true) (hb : b.isPlain = true) : a.same b = b.same a := by
  cases hcontainer : a.isContainer with
  | false =>
    cases hcontainer' : b.isContainer with
    | true => exact Value.same_container hcontainer' ha hcontainer
    | false => exact Value.same_leaf_comm ha hb hcontainer hcontainer'
  | true =>
    cases hcontainer' : b.isContainer with
    | false => exact (Value.same_container hcontainer hb hcontainer').symm
    | true =>
      cases a with
      | list xs =>
        cases b with
        | list ys => exact sameAll_comm ha hb
        | _ => first | rfl | cases hcontainer'
      | tuple xs =>
        cases b with
        | tuple ys => exact sameAll_comm ha hb
        | _ => first | rfl | cases hcontainer'
      | mapping es =>
        cases b with
        | mapping fs =>
          obtain ⟨hes,hdistinct⟩ := Bool.and_eq_true_iff.mp ha
          obtain ⟨hfs,hdistinct'⟩ := Bool.and_eq_true_iff.mp hb
          exact sameEntries_comm hes hfs (of_decide_eq_true hdistinct) (of_decide_eq_true hdistinct')
            (entries_comm hes hfs)
        | _ => first | rfl | cases hcontainer'
      | _ => cases hcontainer

theorem sameAll_comm {xs ys : List Value} (hxs : allPlain xs = true) (hys : allPlain ys = true) :
    sameAll xs ys = sameAll ys xs := by
  cases xs with
  | nil => cases ys <;> rfl
  | cons x xs =>
    cases ys with
    | nil => rfl
    | cons y ys =>
      obtain ⟨hx,hxs⟩ := Bool.and_eq_true_iff.mp hxs
      obtain ⟨hy,hys⟩ := Bool.and_eq_true_iff.mp hys
      rw [sameAll,sameAll,Value.same_comm hx hy,sameAll_comm hxs hys]

theorem entries_comm {es fs : List (Value × Value)} (hes : entriesPlain es = true) (hfs : entriesPlain fs = true) :
    ∀ e ∈ es, ∀ f ∈ fs, e.2.same f.2 = f.2.same e.2 := by
  cases es with
  | nil => exact fun _ h => by cases h
  | cons entry es =>
    obtain ⟨k,w⟩ := entry
    rw [entriesPlain_iff,List.forall_mem_cons] at hes
    intro e he f hf
    obtain rfl | he := List.mem_cons.mp he
    · exact Value.same_comm hes.1.2 (entriesPlain_iff.mp hfs f hf).2
    · exact entries_comm (entriesPlain_iff.mpr hes.2) hfs e he f hf

end

end Trischema
