import Trischema.Proofs.Table.Addressing
import Trischema.Proofs.Value.Scalars

/-!
What a restricted column admits. Its definition writes the declared values in one way and records bind theirs in another;
a value is admitted where both come to the same text or number. For texts, numbers, truth values and dates this is
equality with a declared value, moments and bytes are equal to none.
-/

namespace Trischema

/-- A number in a column that has no whole numbers. -/
def Number.widened : Number → Number
  | int n => float (Binary64.ofInt n)
  | n => n

namespace Value

/-- A value as the engine reads it in a definition: truth values and numbers as numbers, all else as its plain text. -/
def declared : Value → Value
  | .bool b => .int (if b then 1 else 0)
  | .int n => if Cell.fits n then .int n else .float (Binary64.ofInt n)
  | .float x => .float x
  | v => .str v.display

/-- The text of a value in a column of texts. -/
def keptText? : Value → Option String
  | .float x => some (Cell.realText x)
  | .moment m => some m.iso
  | .date d => some d.iso
  | v =>
    match v.text?, v.number? with
    | some s, _ => some s
    | none, some (.int n) => some (toString n)
    | none, _ => none

/-- The number of a value in a column of numbers, where texts are read. -/
def readNumber? : Value → Option Number
  | .str s => (Cell.number? s).bind (·.toValue.number?)
  | v => v.number?

/-- Whether nothing is kept of a value. -/
def isLost : Value → Bool
  | .null => true
  | .float x => x.isNan
  | _ => false

/-- Why a value cannot be bound, if it cannot. -/
def unbound? : Value → Option Failure
  | .null | .float _ | .bytes _ | .moment _ | .date _ => none
  | v =>
    match v.text?, v.number? with
    | some _, _ => none
    | none, some (.int n) => if Cell.fits n then none else some .overflow
    | none, _ => some .binding

end Value

namespace ColumnType

/-- Whether a column finds a value among its declared ones by another: by their texts in columns of texts, dates and
moments, by their numbers in columns of numbers. -/
def recognizes : ColumnType → (w u : Value) → Bool
  | text, w, u | other _, w, u | moment, w, u | date, w, u => w.keptText? == u.declared.keptText?
  | whole, w, u | truth, w, u => w.number?.any fun m => u.declared.readNumber?.any (m.same ·)
  | double, w, u => w.number?.any fun m => u.declared.readNumber?.any (m.widened.same ·)
  | bytes, _, _ | document, _, _ | array, _, _ => false

/-- Whether a declared value is written as a column keeps the values of its kind. -/
def Writes : ColumnType → Value → Prop
  | text, .str _ | other _, .str _ => True
  | whole, .bool _ | double, .bool _ | truth, .bool _ => True
  | whole, .int n | double, .int n | truth, .int n => Cell.fits n = true
  | whole, .float x | double, .float x | truth, .float x => x.isFinite = true
  | date, .date d => d.IsValid
  | _, _ => False

end ColumnType

namespace Cell

variable {a : Affinity} {c x : Cell} {n : Number}

/-- A number is equal to the cells of the same number. -/
theorem same_number (hx : x.toValue.number? = some n) (c : Cell) : x.same c = c.toValue.number?.any (n.same ·) := by
  cases x with
  | int m =>
    cases hx
    cases c with
    | int k => exact (Number.same_int_iff m k).symm
    | real y =>
      change (y.compareInt? m == some .eq) = ((y.compareInt? m).map Ordering.swap == some .eq && true)
      rcases y.compareInt? m with _ | o
      · rfl
      · cases o <;> rfl
    | _ => rfl
  | real y =>
    cases hx
    cases c with
    | int k =>
      change (y.compareInt? k == some .eq) = (y.compareInt? k == some .eq && true)
      exact (Bool.and_true _).symm
    | real z =>
      change (y.compare? z == some .eq) = (y.compare? z == some .eq && true)
      exact (Bool.and_true _).symm
    | _ => rfl
  | null | text | blob => cases hx

theorem numeric_number (c : Cell) : c.numeric.toValue.number? = c.toValue.readNumber? := by
  cases c with
  | text s =>
    change ((number? s).getD (text s)).toValue.number? = (number? s).bind (·.toValue.number?)
    cases number? s <;> rfl
  | _ => rfl

/-- A number that a column keeps is found by what reads as the same number. -/
theorem holds_number (ha : a = .integer ∨ a = .real) (hx : x.toValue.number? = some n) (c : Cell) :
    x.holds a c = c.toValue.readNumber?.any (n.same ·) := by
  have hnumeric : x.numeric = x := by cases x <;> first | rfl | cases hx
  have hholds : x.holds a c = x.numeric.same c.numeric := by rcases ha with rfl | rfl <;> rfl
  rw [hholds,hnumeric,same_number hx,numeric_number]

end Cell

namespace Value

variable {w u : Value} {cell lit : Cell}

/-- What is declared is a text or a number. -/
theorem declared_text (hlit : lit.toValue = u.declared) :
    ∃ t, u.declared.keptText? = some t ∧ lit.textual = .text t := by
  have hkept : (∃ t, u.declared = .str t) ∨ (∃ n, u.declared = .int n) ∨ ∃ x, u.declared = .float x := by
    cases u with
    | bool b => exact .inr (.inl ⟨_,rfl⟩)
    | int n =>
      rw [declared]
      cases Cell.fits n with
      | true => exact .inr (.inl ⟨n,rfl⟩)
      | false => exact .inr (.inr ⟨_,rfl⟩)
    | float x => exact .inr (.inr ⟨x,rfl⟩)
    | _ => exact .inl ⟨_,rfl⟩
  rw [← hlit] at hkept ⊢
  rcases hkept with ⟨t,h⟩ | ⟨n,h⟩ | ⟨x,h⟩ <;> cases lit <;> first | exact ⟨_,rfl,rfl⟩ | cases h

theorem isLost_of_int {n : Int} (hn : w.number? = some (.int n)) : w.isLost = false := by
  cases w <;> first | rfl | cases hn

/-- What is bound for a value: a cell that is missing where nothing is kept of the value, and that a column of texts finds
by the text which it keeps of the value. -/
structure Bares (w : Value) (cell : Cell) : Prop where
  bound : Cell.ofValue w.bare = .ok cell
  missing : (cell == .null) = w.isLost
  text : ∀ t, cell.textual.textual.same (.text t) = (!w.isLost && w.keptText? == some t)

/-- How a value is bound: it is refused for a fault, or there is a cell for it. -/
inductive Binds (w : Value) : Prop
  | refused (fault : Failure) (unbound : w.unbound? = some fault) (refuses : Cell.ofValue w.bare = .error (.failure fault))
  | bound (cell : Cell) (bound : w.unbound? = none) (bares : w.Bares cell)

theorem binds (w : Value) : w.Binds := by
  have hint {n : Int} (hbare : Cell.ofValue w.bare = Cell.ofInt n)
      (hbound : w.unbound? = if Cell.fits n then none else some .overflow) (hlost : w.isLost = false)
      (hkept : w.keptText? = some (toString n)) : w.Binds := by
    cases hfits : Cell.fits n with
    | false => exact .refused .overflow (by rw [hbound,hfits]; rfl) (by rw [hbare,Cell.ofInt,hfits]; rfl)
    | true =>
      refine .bound (.int n) (by rw [hbound,hfits]; rfl) ⟨by rw [hbare,Cell.ofInt,hfits]; rfl,hlost.symm,fun t => ?_⟩
      rw [hlost,hkept]
      rfl
  have htext {s : String} (hbare : Cell.ofValue w.bare = .ok (.text s)) (hbound : w.unbound? = none)
      (hlost : w.isLost = false) (hkept : w.keptText? = some s) : w.Binds := by
    refine .bound (.text s) hbound ⟨hbare,hlost.symm,fun t => ?_⟩
    rw [hlost,hkept]
    rfl
  cases w with
  | bool b => exact hint rfl rfl rfl rfl
  | int n => exact hint rfl rfl rfl rfl
  | float x =>
    refine .bound _ rfl ⟨rfl,?_,fun t => ?_⟩
    · change _ = x.isNan
      cases x.isNan <;> rfl
    · change _ = (!x.isNan && _)
      cases x.isNan <;> rfl
  | member m =>
    obtain ⟨cls,mixin,name,value⟩ := m
    cases mixin with
    | plain => exact .refused _ rfl rfl
    | integer =>
      cases value with
      | int n => exact hint rfl rfl rfl rfl
      | _ => exact .refused _ rfl rfl
    | text =>
      cases value with
      | str s => exact htext rfl rfl rfl rfl
      | _ => exact .refused _ rfl rfl
  | str s => exact htext rfl rfl rfl rfl
  | date d => exact htext rfl rfl rfl rfl
  | moment m => exact htext rfl rfl rfl rfl
  | null | bytes => exact .bound _ rfl ⟨rfl,rfl,fun _ => rfl⟩
  | _ => exact .refused _ rfl rfl

end Value

namespace ColumnType

variable {type : ColumnType} {w u : Value}

/-- Numbers that are written as their column keeps them are read as the same numbers. -/
theorem Writes.number (h : type.Writes u) (hkind : type = .whole ∨ type = .double ∨ type = .truth) :
    ∃ n, u.number? = some n ∧ u.declared.readNumber? = some n := by
  rcases hkind with rfl | rfl | rfl <;> cases u <;> first | exact h.elim | exact ⟨_,rfl,rfl⟩ | skip
  all_goals
    rename_i n
    have hfits : Cell.fits n = true := h
    exact ⟨.int n,rfl,by rw [Value.declared,if_pos hfits]; rfl⟩

/-- What is written as a column keeps it is equal to itself. -/
theorem Writes.same_self (h : type.Writes u) : u.same u = true := by
  cases u with
  | str s => exact (Value.same_str s s).mpr rfl
  | bool b => exact Number.same_int _
  | int n => exact Number.same_int n
  | float x =>
    have hfinite : x.isFinite = true := by cases type <;> first | exact h | exact h.elim
    refine Number.same_self (Binary64.compare?_self ?_) rfl
    cases x <;> first | rfl | cases hfinite
  | date d => exact Value.same_date_iff.mpr rfl
  | _ => cases type <;> exact h.elim

end ColumnType

namespace Column

variable {c : Column} {vs : List Value} {w u : Value} {cell lit : Cell}

/-- What a column keeps of a value. -/
def kept (c : Column) (w : Value) : Except Error Cell := do
  let cell ← Cell.ofValue (← c.encode w)
  return cell.stored c.type.affinity

/-- A cell that a column keeps of a value: it is missing where nothing is kept, and is found by the literals that the
column recognizes the value by. -/
structure Keeps (c : Column) (w : Value) (cell : Cell) : Prop where
  kept : c.kept w = .ok cell
  missing : (cell == .null) = w.isLost
  found : ∀ u lit, lit.toValue = u.declared → cell.holds c.type.affinity lit = (!w.isLost && c.type.recognizes w u)

theorem keeps_null (c : Column) : c.Keeps .null .null := by
  refine ⟨?_,rfl,fun u lit _ => Cell.holds_null _ _⟩
  change Except.ok (Cell.null.stored c.type.affinity) = _
  rw [Cell.stored_null]

theorem kept_bare (hserialized : c.type.isSerialized = false) (htruth : c.type ≠ .truth) (w : Value) :
    c.kept w = (Cell.ofValue w.bare).map (·.stored c.type.affinity) := by
  rw [kept,encode_bare hserialized htruth,ok_bind]
  cases Cell.ofValue w.bare <;> rfl

/-- A column of texts, moments or dates compares what it keeps as text. -/
theorem keeps_text (haffinity : c.type.affinity = .text) (hkept : c.kept w = (Cell.ofValue w.bare).map (·.stored .text))
    (hrecognizes : ∀ u, c.type.recognizes w u = (w.keptText? == u.declared.keptText?)) (h : w.Bares cell) :
    c.Keeps w cell.textual := by
  refine ⟨by rw [hkept,h.bound]; rfl,?_,fun u lit hlit => ?_⟩
  · rw [← h.missing]
    cases cell <;> rfl
  · obtain ⟨t,ht,hlit⟩ := Value.declared_text hlit
    rw [haffinity,hrecognizes,ht,← h.text,← hlit]
    rfl

/-- A column of numbers keeps a number, and compares what is read as one. -/
theorem keeps_number (haffinity : c.type.affinity = .integer ∨ c.type.affinity = .real) {x : Cell} {m n : Number}
    (hkept : c.kept w = .ok x) (hx : x.toValue.number? = some m) (hlost : w.isLost = false)
    (hsame : ∀ l, m.same l = n.same l)
    (hrecognizes : ∀ u, c.type.recognizes w u = u.declared.readNumber?.any (n.same ·)) : c.Keeps w x := by
  refine ⟨hkept,?_,fun u lit hlit => ?_⟩
  · rw [hlost]
    cases x <;> first | rfl | cases hx
  · rw [Cell.holds_number haffinity hx,hlit,hrecognizes,hlost]
    simp only [hsame,Bool.not_false,Bool.true_and]

theorem keeps_whole (htype : c.type = .whole) {n : Int} (hn : w.number? = some (.int n)) (h : w.Bares cell) :
    c.Keeps w (.int n) := by
  have hbound := h.bound
  rw [bare_of_number hn] at hbound
  refine keeps_number (n := .int n) (.inl (by rw [htype]; rfl)) ?_ rfl (Value.isLost_of_int hn) (fun _ => rfl)
    fun u => by rw [htype,ColumnType.recognizes,hn]; rfl
  rw [kept_bare (by rw [htype]; rfl) (by rw [htype]; exact ColumnType.noConfusion),h.bound,ofValue_int hn hbound,htype]
  rfl

theorem keeps_truth (htype : c.type = .truth) (x : Bool) : c.Keeps (.bool x) (.int (if x then 1 else 0)) := by
  obtain ⟨bound,hbound,hcell⟩ := encode_cell (c := c) (s := .boolean) (v := .bool x) htype (.inr trivial)
  refine keeps_number (.inl (by rw [htype]; rfl)) ?_ rfl rfl (fun _ => rfl) fun u => by rw [htype]; rfl
  rw [kept,hbound,ok_bind,hcell,ok_bind,htype]
  rfl

/-- Whole numbers are kept as the numbers with a fraction that are nearest to them. -/
theorem keeps_widened (htype : c.type = .double) {n : Int} (hn : w.number? = some (.int n)) (h : w.Bares cell) :
    c.Keeps w (.real (.ofInt n)) := by
  have hbound := h.bound
  rw [bare_of_number hn] at hbound
  refine keeps_number (n := .float (.ofInt n)) (.inr (by rw [htype]; rfl)) ?_ rfl (Value.isLost_of_int hn) (fun _ => rfl)
    fun u => by rw [htype,ColumnType.recognizes,hn]; rfl
  rw [kept_bare (by rw [htype]; rfl) (by rw [htype]; exact ColumnType.noConfusion),h.bound,ofValue_int hn hbound,htype]
  rfl

/-- Numbers with a fraction are kept as equal ones, but for what is no number. -/
theorem keeps_float (htype : c.type = .double) (x : Binary64) : ∃ cell, c.Keeps (.float x) cell := by
  have hkept : c.kept (.float x) = .ok ((if x.isNan then Cell.null else .real x).stored .real) := by
    rw [kept_bare (by rw [htype]; rfl) (by rw [htype]; exact ColumnType.noConfusion),htype]
    rfl
  cases hnan : x.isNan with
  | true =>
    rw [hnan,if_pos rfl] at hkept
    refine ⟨.null,hkept,hnan.symm,fun u lit _ => ?_⟩
    rw [Cell.holds_null,Value.isLost,hnan]
    rfl
  | false =>
    obtain ⟨y,hy,hcompare⟩ := Cell.stored_real hnan
    rw [hnan,if_neg Bool.false_ne_true,hy] at hkept
    refine ⟨_,keeps_number (n := .float x) (.inr (by rw [htype]; rfl)) hkept rfl hnan (Number.same_congr ?_)
      fun u => by rw [htype]; rfl⟩
    rw [Number.same,Bool.and_eq_true]
    exact ⟨beq_iff_eq.mpr hcompare,rfl⟩

/-- Bytes are kept as they are, and are found by no literal. -/
theorem keeps_bytes (htype : c.type = .bytes) (bs : List UInt8) : c.Keeps (.bytes bs) (.blob bs) := by
  refine ⟨?_,rfl,fun u lit hlit => ?_⟩
  · rw [kept_bare (by rw [htype]; rfl) (by rw [htype]; exact ColumnType.noConfusion),htype]
    rfl
  · obtain ⟨t,_,hlit⟩ := Value.declared_text hlit
    rw [htype]
    cases lit <;> first | rfl | cases hlit

/-- What a column for single values keeps of one of its kind, unless it cannot be bound. -/
theorem keeps (htakes : c.type.Takes w) (hserialized : c.type.isSerialized = false) :
    (∃ fault, w.unbound? = some fault ∧ c.kept w = .error (.failure fault)) ∨
      w.unbound? = none ∧ ∃ cell, c.Keeps w cell := by
  by_cases hnull : w = .null
  · rw [hnull]
    exact .inr ⟨rfl,_,c.keeps_null⟩
  have hbare (htruth : c.type ≠ .truth) (hkeeps : ∀ cell, w.Bares cell → ∃ x, c.Keeps w x) :
      (∃ fault, w.unbound? = some fault ∧ c.kept w = .error (.failure fault)) ∨
        w.unbound? = none ∧ ∃ cell, c.Keeps w cell := by
    rcases w.binds with ⟨fault,hfault,herror⟩ | ⟨cell,hnone,hcell⟩
    · exact .inl ⟨fault,hfault,by rw [kept_bare hserialized htruth,herror]; rfl⟩
    · exact .inr ⟨hnone,hkeeps cell hcell⟩
  cases htype : c.type with
  | text | other _ | moment | date =>
    have htruth : c.type ≠ .truth := by rw [htype]; exact ColumnType.noConfusion
    have haffinity : c.type.affinity = .text := by rw [htype]; rfl
    refine hbare htruth fun cell hcell => ⟨_,keeps_text haffinity ?_ (fun u => by rw [htype]; rfl) hcell⟩
    rw [kept_bare hserialized htruth,haffinity]
  | whole =>
    rw [htype] at htakes
    obtain ⟨n,hn⟩ := ColumnType.takes_whole htakes hnull
    exact hbare (by rw [htype]; exact ColumnType.noConfusion) fun cell hcell => ⟨_,keeps_whole htype hn hcell⟩
  | truth =>
    rw [htype] at htakes
    obtain ⟨x,rfl⟩ := ColumnType.takes_truth htakes hnull
    exact .inr ⟨by cases x <;> rfl,_,keeps_truth htype x⟩
  | double =>
    rw [htype] at htakes
    rcases ColumnType.takes_double htakes hnull with ⟨x,rfl⟩ | ⟨n,hn⟩
    · exact .inr ⟨rfl,keeps_float htype x⟩
    · exact hbare (by rw [htype]; exact ColumnType.noConfusion) fun cell hcell => ⟨_,keeps_widened htype hn hcell⟩
  | bytes =>
    rw [htype] at htakes
    obtain ⟨bs,rfl⟩ := ColumnType.takes_bytes htakes hnull
    exact .inr ⟨rfl,_,keeps_bytes htype bs⟩
  | document | array => rw [htype] at hserialized; cases hserialized

end Column

end Trischema
