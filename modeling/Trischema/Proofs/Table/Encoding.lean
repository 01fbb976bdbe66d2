import Trischema.Proofs.Calendar.RoundTrip
import Trischema.Table.Definition
import Trischema.Table.Encoding

/-!
Scalars in the cells of a table: each is bound to one cell, which its column keeps as it is and reads back,
and for texts, whole numbers and truth values cells are equal exactly when the values are.
-/

namespace Trischema

namespace Scalar

/-- Whether a value is a scalar of a kind; whole numbers have 64 bits, dates and moments exist. -/
def Takes : Scalar → Value → Prop
  | string, .str _ | boolean, .bool _ => True
  | integer, .int n => Cell.fits n = true
  | datetime, .moment m => m.IsValid
  | date, .date d => d.IsValid
  | _, _ => False

/-- The kinds whose cells are equal exactly when the values are. -/
def IsComparable (s : Scalar) : Prop := s = string ∨ s = integer ∨ s = boolean

end Scalar

namespace Value

/-- The cell that keeps a scalar. -/
def cell : Value → Cell
  | str s => .text s
  | int n => .int n
  | bool b => .int (if b then 1 else 0)
  | moment m => .text m.iso
  | date d => .text d.iso
  | _ => .null

/-- A value as it is read back. -/
def settled : Value → Value
  | moment m => moment m.settled
  | v => v

end Value

namespace Column

variable {c : Column} {s : Scalar} {v w : Value}

/-- Whether a scalar of a kind, or nothing, is in a value. -/
def Holds (s : Scalar) (v : Value) : Prop := v = .null ∨ s.Takes v

theorem encode_cell (hc : c.type = .ofScalar s) (hv : Holds s v) :
    ∃ bound, c.encode v = .ok bound ∧ Cell.ofValue bound = .ok v.cell := by
  rcases hv with rfl | hv
  · exact ⟨.null,rfl,rfl⟩
  · cases s <;> cases v <;> first | exact hv.elim | skip
    case string.str t => exact ⟨.str t,by unfold encode; rw [hc]; rfl,rfl⟩
    case integer.int n =>
      have hfits : Cell.fits n = true := hv
      refine ⟨.int n,by unfold encode; rw [hc]; rfl,?_⟩
      change Cell.ofInt n = _
      rw [Cell.ofInt,if_pos hfits]
      rfl
    case boolean.bool b =>
      refine ⟨.int (if b then 1 else 0),by unfold encode; rw [hc]; rfl,?_⟩
      cases b <;> rfl
    case datetime.moment m => exact ⟨.str m.iso,by unfold encode; rw [hc]; rfl,rfl⟩
    case date.date d => exact ⟨.str d.iso,by unfold encode; rw [hc]; rfl,rfl⟩

/-- A column keeps the cell of its scalar as it is. -/
theorem stored_cell (hc : c.type = .ofScalar s) (hv : Holds s v) : v.cell.stored c.type.affinity = v.cell := by
  rw [hc]
  rcases hv with rfl | hv
  · cases s <;> rfl
  · cases s <;> cases v <;> first | exact hv.elim | rfl

theorem decode_cell (hc : c.type = .ofScalar s) (hv : Holds s v) : c.decode v.cell.toValue = .ok v.settled := by
  rcases hv with rfl | hv
  · rfl
  · cases s <;> cases v <;> first | exact hv.elim | skip
    case string.str t => rw [decode,hc]; rfl
    case integer.int n => rw [decode,hc]; rfl
    case boolean.bool b => cases b <;> rw [decode,hc] <;> rfl
    case datetime.moment m =>
      rw [decode,hc]
      change decodeText (fun s => (Moment.read s).map .moment) (.str m.iso) = _
      simp only [decodeText,Value.text?,m.read_iso hv]
      rfl
    case date.date d =>
      rw [decode,hc]
      change decodeText (fun s => (Date.read s).map .date) (.str d.iso) = _
      simp only [decodeText,Value.text?,Date.IsValid.read_iso hv]
      rfl

theorem cell_eq_null (hv : Holds s v) : v.cell = .null ↔ v = .null := by
  rcases hv with rfl | hv
  · exact iff_of_true rfl rfl
  · cases s <;> cases v <;> first | exact hv.elim | simp [Value.cell]

/-- Two cells of a comparable kind are equal exactly when the values are, and none is absent. -/
theorem cell_same (hs : s.IsComparable) (hv : Holds s v) (hw : Holds s w) :
    v.cell.same w.cell = (!w.isNull && v.same w) := by
  have hint (m n : Int) : (m == n) = (Value.int m).same (.int n) := by
    change _ = (some (compare m n) == some Ordering.eq && _)
    rw [Bool.eq_iff_iff]
    simp [Number.compare?,Number.parts]
  rcases hv with rfl | hv
  · rcases hw with rfl | hw
    · rfl
    · rcases hs with rfl | rfl | rfl <;> cases w <;> first | exact hw.elim | rfl
  · rcases hw with rfl | hw
    · rcases hs with rfl | rfl | rfl <;> cases v <;> first | exact hv.elim | rfl
    · rcases hs with rfl | rfl | rfl <;> cases v <;> first | exact hv.elim | skip
      all_goals cases w <;> first | exact hw.elim | skip
      case inl.str.str => rfl
      case inr.inl.int.int m n => exact hint m n
      case inr.inr.bool.bool a b => cases a <;> cases b <;> rfl

end Column

end Trischema
