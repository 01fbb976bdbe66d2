import Trischema.Proofs.Table.Returning

/-!
Which texts find a key in a column. A key is stored in one form, and looked for by the text of the other: for texts,
whole numbers and dates the two agree, for truth values, moments and bytes they never do.
-/

namespace Trischema

namespace ColumnType

/-- Whether a value is a key of the kind of a column; whole numbers have 64 bits. -/
def Keys : ColumnType → Value → Prop
  | text, .str _ | truth, .bool _ | date, .date _ | bytes, .bytes _ => True
  | whole, .int n => Cell.fits n = true
  | moment, .moment m => m.IsValid
  | _, _ => False

/-- Whether a column finds a key by a text: numbers by every text that reads as the same number, dates and moments by
their interchange form. -/
def addresses : ColumnType → Value → String → Bool
  | text, .str t, s => t == s
  | whole, .int n, s => (Cell.int n).same (Cell.text s).numeric
  | truth, .bool x, s => (Cell.int (if x then 1 else 0)).same (Cell.text s).numeric
  | date, .date d, s => d.iso == s
  | moment, .moment m, s => m.iso == s
  | _, _, _ => false

/-- Whether a column finds its keys by the texts that entities are stored under. -/
def findsKeys : ColumnType → Bool
  | text | whole | date => true
  | _ => false

variable {type : ColumnType} {v w : Value}

/-- The two written forms of moments are told apart by what stands behind the date. -/
theorem iso_ne_display {m n : Moment} (hm : m.IsValid) (hn : n.IsValid) : m.iso ≠ (Value.moment n).display := by
  intro heq
  obtain ⟨rest,hrest⟩ : ∃ rest, (n.isoWith " ").toList = n.date.iso.toList ++ ' ' :: rest := by
    refine ⟨(n.isoWith " ").toList.drop (n.date.iso.toList.length + 1),?_⟩
    simp only [Moment.isoWith,String.toList_append,List.append_assoc]
    simp
  have hchars := congrArg String.toList heq
  change m.iso.toList = (n.isoWith " ").toList at hchars
  rw [m.iso_toList,hrest] at hchars
  have hlength : m.date.iso.toList.length = n.date.iso.toList.length := by
    rw [hm.date.iso_length,hn.date.iso_length]
  have htail := List.append_inj_right hchars hlength
  cases htail

theorem toString_injective {m n : Int} (hm : Cell.fits m = true) (hn : Cell.fits n = true)
    (h : toString m = toString n) : m = n := by
  have hread := Cell.number?_int hm
  rw [h,Cell.number?_int hn] at hread
  cases hread
  rfl

/-- A column finds a key by the text of a key exactly when it finds any, and the keys have the same text. -/
theorem addresses_display (hv : type.Keys v) (hw : type.Keys w) :
    type.addresses v w.display = (type.findsKeys && v.display == w.display) := by
  cases type <;> cases v <;> first | exact hv.elim | skip
  all_goals cases w <;> first | exact hw.elim | skip
  case text.str.str | date.date.date | bytes.bytes.bytes => rfl
  case moment.moment.moment m n => exact beq_eq_false_iff_ne.mpr (iso_ne_display hv hw)
  case truth.bool.bool x y => cases x <;> cases y <;> decide +kernel
  case whole.int.int m n =>
    change (Cell.int m).same ((Cell.number? (toString n)).getD _) = (toString m == toString n)
    rw [Cell.number?_int hw,Bool.eq_iff_iff,beq_iff_eq]
    change (m == n) = true ↔ _
    rw [beq_iff_eq]
    exact ⟨fun h => by rw [h],toString_injective hv hw⟩

end ColumnType

namespace Column

variable {c : Column} {v bound : Value} {cell : Cell}

/-- The cell that a column keeps of a key is there, and is equal to the texts that find the key. -/
theorem holds_addresses (hkeys : c.type.Keys v) (hbound : c.encode v = .ok bound) (hcell : Cell.ofValue bound = .ok cell) :
    cell.stored c.type.affinity ≠ .null ∧
      ∀ s, (cell.stored c.type.affinity).holds c.type.affinity (.text s) = c.type.addresses v s := by
  have hencode (hserialized : c.type.isSerialized = false) (htruth : c.type ≠ .truth) : bound = v.bare :=
    Except.ok.inj (hbound.symm.trans (encode_bare hserialized htruth v))
  cases htype : c.type <;> rw [htype] at hkeys <;> cases v <;> first | exact hkeys.elim | skip
  case text.str | moment.moment | date.date | bytes.bytes =>
    obtain rfl := hencode (by rw [htype]; rfl) (by rw [htype]; exact ColumnType.noConfusion)
    cases hcell
    exact ⟨Cell.noConfusion,fun _ => rfl⟩
  case whole.int n =>
    obtain rfl := hencode (by rw [htype]; rfl) (by rw [htype]; exact ColumnType.noConfusion)
    rw [ofValue_int rfl hcell]
    exact ⟨Cell.noConfusion,fun _ => rfl⟩
  case truth.bool x =>
    obtain ⟨bound',hbound',hcell'⟩ := encode_cell (c := c) (s := .boolean) (v := .bool x) htype (.inr trivial)
    cases hbound.symm.trans hbound'
    cases hcell.symm.trans hcell'
    exact ⟨Cell.noConfusion,fun _ => rfl⟩

/-- A column finds the cell of a key by the text of the key. -/
theorem finds_cell (hfinds : c.type.finds v = true) (hbound : c.encode v = .ok bound)
    (hcell : Cell.ofValue bound = .ok cell) :
    (cell.stored c.type.affinity).holds c.type.affinity (.text v.display) = true := by
  have hkeys : c.type.Keys v ∧ c.type.findsKeys = true := by
    cases htype : c.type <;> rw [htype] at hfinds <;> cases v <;> try cases hfinds
    case text.str | date.date => exact ⟨trivial,rfl⟩
    case whole.int n =>
      have hencode := encode_bare (c := c) (by rw [htype]; rfl) (by rw [htype]; exact ColumnType.noConfusion) (.int n)
      cases hencode.symm.trans hbound
      refine ⟨?_,rfl⟩
      change Cell.ofInt n = _ at hcell
      rw [Cell.ofInt] at hcell
      split at hcell
      · assumption
      · cases hcell
  rw [(holds_addresses hkeys.1 hbound hcell).2,ColumnType.addresses_display hkeys.1 hkeys.1,hkeys.2,beq_self_eq_true]
  rfl

end Column

end Trischema
