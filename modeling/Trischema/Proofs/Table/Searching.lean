import Trischema.Proofs.Table.Returning
import Trischema.Proofs.Value.Scalars

/-!
What a column finds. It compares the cell that it keeps of a value with the cell of the value that is asked for; this is
equality of the values but for what is absent, moments that are written differently, texts that are asked for by what is
no text, and scalars in documents.
-/

namespace Trischema

/-- The text of a scalar in a column of texts. -/
def Value.asText : Value → String
  | .str s => s
  | .int n => toString n
  | .bool b => if b then "1" else "0"
  | .moment m => m.iso
  | .date d => d.iso
  | _ => ""

namespace ColumnType

/-- Whether a column is asked for a value of its kind, which is absent or a plain scalar. -/
def Asks : ColumnType → Value → Prop
  | _, .null => True
  | whole, .int _ | whole, .bool _ | double, .int _ | double, .bool _ | truth, .bool _ => True
  | moment, .moment m => m.IsValid
  | date, .date d => d.IsValid
  | text, q | other _, q | document, q | array, q => q.isScalar = true
  | _, _ => False

/-- Whether what is asked for can be bound: whole numbers have 64 bits, unless they are written to a document. -/
def binds (type : ColumnType) (asked : Value) : Bool :=
  type.isSerialized ||
    match asked with
    | .int n => Cell.fits n
    | _ => true

/-- Whether a document misses a scalar that is equal to what is read from it, or is found by another: numbers by their
form, dates and moments as their texts. -/
def misjudgesDocument (read asked : Value) : Bool :=
  match read, asked with
  | _, .str _ | .int _, .int _ | .bool _, .bool _ => false
  | read, .date _ | read, .moment _ => read.text? == some asked.display
  | read, asked => read.same asked

/-- Whether a column misses a value that is equal to what is read from it, or is found by one that is not: what is absent
is never found, texts are found by all that has their text, and moments by those that are written alike. -/
def misjudges : ColumnType → (stored read asked : Value) → Bool
  | _, _, read, .null => read.isNull
  | text, _, read, q | other _, _, read, q => q.text?.isNone && read.text? == some q.asText
  | moment, .moment m, _, .moment n => m.settled.sameInstant n != (m.iso == n.iso)
  | document, _, read, q | array, _, read, q => misjudgesDocument read q
  | _, _, _, _ => false

theorem isScalar_of_asks {type : ColumnType} {q : Value} (h : type.Asks q) : q.isScalar = true := by
  cases type <;> cases q <;> first | rfl | exact h | exact h.elim

theorem misjudges_text {type : ColumnType} {q : Value} (htype : type = .text ∨ ∃ s, type = .other s) (hq : q ≠ .null)
    (v w : Value) : type.misjudges v w q = (q.text?.isNone && w.text? == some q.asText) := by
  rcases htype with rfl | ⟨s,rfl⟩ <;> cases q <;> first | rfl | exact absurd rfl hq

end ColumnType

namespace Column

variable {c : Column} {v w q bound bound' : Value} {cell cell' : Cell}

/-- A column finds a value by another one where what is read is equal to it, unless the column misjudges them. -/
def Judges (c : Column) (v w q : Value) (cell cell' : Cell) : Prop :=
  (cell.stored c.type.affinity).holds c.type.affinity cell' = (w.same q != c.type.misjudges v w q)

theorem judges_null (h : Cell.ofValue .null = .ok cell') : c.Judges v w .null cell cell' := by
  cases h
  have hnone (x : Cell) : x.holds c.type.affinity .null = false := by
    have hsought : Cell.null.sought c.type.affinity = .null := by cases c.type.affinity <;> rfl
    rw [Cell.holds,hsought]
    cases x.sought c.type.affinity <;> rfl
  have hmisjudges : c.type.misjudges v w .null = w.isNull := by cases c.type <;> rfl
  rw [Judges,hnone,hmisjudges,Value.same_null,bne_self_eq_false]

/-- Nothing is found where nothing is kept, whatever is asked for. -/
theorem judges_absent (hq : q ≠ .null) : c.Judges .null .null q .null cell' := by
  have hsame : Value.null.same q = false := Bool.eq_false_iff.mpr fun h => hq (Value.eq_null_of_same h)
  have hmisjudges : c.type.misjudges .null .null q = false := by
    cases c.type with
    | text => exact (ColumnType.misjudges_text (.inl rfl) hq _ _).trans (Bool.and_false _)
    | other s => exact (ColumnType.misjudges_text (.inr ⟨s,rfl⟩) hq _ _).trans (Bool.and_false _)
    | document | array => cases q <;> first | exact absurd rfl hq | rfl | exact hsame
    | _ => cases q <;> first | exact absurd rfl hq | rfl
  rw [Judges,Cell.stored_null,Cell.holds_null,hsame,hmisjudges]
  rfl

theorem judges_text (htype : c.type = .text ∨ ∃ s, c.type = .other s) (hscalar : q.isScalar = true) (hnull : q ≠ .null)
    (hw : c.decode (cell.stored c.type.affinity).toValue = .ok w) (hcell' : Cell.ofValue q.bare = .ok cell') :
    c.Judges v w q cell cell' := by
  have haffinity : c.type.affinity = .text := by rcases htype with h | ⟨s,h⟩ <;> (rw [h]; rfl)
  rw [decode_text htype,haffinity] at hw
  cases Except.ok.inj hw
  have hasked : cell'.textual = .text q.asText := by
    cases q with
    | null => exact absurd rfl hnull
    | str s | moment m | date d =>
      cases hcell'
      rfl
    | int n =>
      rw [ofValue_int rfl hcell']
      rfl
    | bool b =>
      rw [ofValue_int rfl hcell']
      cases b <;> rfl
    | _ => cases hscalar
  have hfound : (cell.stored .text).holds .text cell' = ((cell.stored .text).toValue.text? == some q.asText) := by
    have hholds : (cell.stored .text).holds .text cell' = cell.textual.textual.same cell'.textual := rfl
    rw [hholds,hasked]
    cases cell <;> rfl
  -- what is read is a text or no scalar, so that it is equal to texts alone
  have hequal : (cell.stored .text).toValue.same q =
      (q.text?.isSome && (cell.stored .text).toValue.text? == some q.asText) := by
    cases q with
    | null => exact absurd rfl hnull
    | str s | int n | bool b | moment m | date d => cases cell <;> rfl
    | _ => cases hscalar
  rw [Judges,haffinity,ColumnType.misjudges_text htype hnull,hfound,hequal]
  cases q.text? <;> simp

/-- Cells of numbers are compared as the numbers that are read from them. -/
theorem judges_number (haffinity : c.type.affinity = .integer ∨ c.type.affinity = .real) {k : Int}
    (hq : q.number? = some (.int k)) (hmisjudges : c.type.misjudges v w q = false)
    (hread : (∃ n, cell.stored c.type.affinity = .int n ∧ w.number? = some (.int n)) ∨
      (∃ x, cell.stored c.type.affinity = .real x ∧ w.number? = some (.float x)) ∨
      cell.stored c.type.affinity = .null ∧ w = .null) : c.Judges v w q cell (.int k) := by
  have hsought (x : Cell) (hx : x.numeric = x) : x.sought c.type.affinity = x := by
    rcases haffinity with h | h <;> (rw [h]; exact hx)
  rw [Judges,hmisjudges,Bool.bne_false,Cell.holds,hsought (.int k) rfl]
  rcases hread with ⟨n,hn,hw⟩ | ⟨x,hx,hw⟩ | ⟨hnull,rfl⟩
  · rw [hn,hsought _ rfl,Value.same_of_number hw hq,Number.same_int_iff]
    rfl
  · rw [hx,hsought _ rfl,Value.same_of_number hw hq]
    change (x.compareInt? k == some .eq) = (x.compareInt? k == some .eq && true)
    exact (Bool.and_true _).symm
  · rw [hnull,hsought _ rfl,Value.same_number hq]
    rfl

theorem judges_whole (htype : c.type = .whole) {n k : Int} (hn : v.number? = some (.int n)) (hq : q.number? = some (.int k))
    (hcell : Cell.ofValue v = .ok cell) (hw : c.decode (cell.stored c.type.affinity).toValue = .ok w)
    (hmisjudges : c.type.misjudges v w q = false) : c.Judges v w q cell (.int k) := by
  have hstored : cell.stored c.type.affinity = .int n := by
    rw [ofValue_int hn hcell,htype]
    rfl
  have hread : w = .int n := by
    rw [hstored,decode,htype] at hw
    exact (Except.ok.inj hw).symm
  exact judges_number (.inl (by rw [htype]; rfl)) hq hmisjudges (.inl ⟨n,hstored,by rw [hread]; rfl⟩)

theorem judges_double (htype : c.type = .double) {k : Int} (hv : (∃ x, v = .float x) ∨ ∃ n, v.number? = some (.int n))
    (hq : q.number? = some (.int k)) (hcell : Cell.ofValue v = .ok cell)
    (hw : c.decode (cell.stored c.type.affinity).toValue = .ok w) (hmisjudges : c.type.misjudges v w q = false) :
    c.Judges v w q cell (.int k) := by
  have haffinity : c.type.affinity = .real := by rw [htype]; rfl
  have hdecode (x : Cell) : c.decode x.toValue = .ok x.toValue := by
    rw [decode,htype]
    cases x <;> rfl
  have hread := Except.ok.inj ((hdecode _).symm.trans hw)
  refine judges_number (.inr haffinity) hq hmisjudges (.inr ?_)
  rw [← hread,haffinity]
  rcases hv with ⟨x,rfl⟩ | ⟨n,hn⟩
  · rw [ofValue_float hcell]
    cases hnan : x.isNan with
    | true => exact .inr ⟨rfl,rfl⟩
    | false =>
      obtain ⟨y,hy,_⟩ := Cell.stored_real hnan
      exact .inl ⟨y,hy,by rw [if_neg Bool.false_ne_true,hy]; rfl⟩
  · rw [ofValue_int hn hcell]
    exact .inl ⟨.ofInt n,rfl,rfl⟩

/-- Columns of numbers are asked for whole numbers, and misjudge none. -/
theorem asked_number (htype : c.type = .whole ∨ c.type = .double) (hasks : c.type.Asks q) (hnull : q ≠ .null)
    (hbound' : c.encode q = .ok bound') (hcell' : Cell.ofValue bound' = .ok cell') (v w : Value) :
    ∃ k, q.number? = some (.int k) ∧ cell' = .int k ∧ c.type.misjudges v w q = false := by
  have hbare := encode_bare (c := c) (by rcases htype with h | h <;> (rw [h]; rfl))
    (by rcases htype with h | h <;> (rw [h]; exact ColumnType.noConfusion)) q
  cases hbare.symm.trans hbound'
  obtain ⟨k,hk⟩ : ∃ k, q.number? = some (.int k) := by
    rcases htype with h | h <;> rw [h] at hasks <;> cases q <;> first
      | exact hasks.elim
      | exact absurd rfl hnull
      | exact ⟨_,rfl⟩
  rw [bare_of_number hk] at hcell'
  refine ⟨k,hk,ofValue_int hk hcell',?_⟩
  rcases htype with h | h <;> rw [h] <;> cases q <;> first | rfl | exact absurd rfl hnull

/-- Truth values and dates are equal where their cells are, moments are found by their text. -/
theorem judges_scalar {s : Scalar} (htype : c.type = .ofScalar s) (hs : s = .boolean ∨ s = .datetime ∨ s = .date)
    (hv : s.Takes v) (hq : s.Takes q) (hbound : c.encode v = .ok bound) (hcell : Cell.ofValue bound = .ok cell)
    (hw : c.decode (cell.stored c.type.affinity).toValue = .ok w) (hbound' : c.encode q = .ok bound')
    (hcell' : Cell.ofValue bound' = .ok cell') : c.Judges v w q cell cell' := by
  obtain ⟨_,hencode,hkept⟩ := encode_cell htype (.inr hv)
  cases hencode.symm.trans hbound
  cases hkept.symm.trans hcell
  obtain ⟨_,hencode',hkept'⟩ := encode_cell htype (.inr hq)
  cases hencode'.symm.trans hbound'
  cases hkept'.symm.trans hcell'
  rw [stored_cell htype (.inr hv)] at hw
  cases (decode_cell htype (.inr hv)).symm.trans hw
  rw [Judges,stored_cell htype (.inr hv),htype]
  rcases hs with rfl | rfl | rfl <;> cases v <;> first | exact hv.elim | skip
  all_goals cases q <;> first | exact hq.elim | skip
  case inl.bool.bool a b => cases a <;> cases b <;> rfl
  case inr.inl.moment.moment m n =>
    change (m.iso == n.iso) = (m.settled.sameInstant n != (m.settled.sameInstant n != (m.iso == n.iso)))
    cases m.settled.sameInstant n <;> cases m.iso == n.iso <;> rfl
  case inr.inr.date.date d e =>
    change (d.iso == e.iso) = ((d == e) != false)
    rw [Bool.bne_false,Bool.eq_iff_iff,beq_iff_eq,beq_iff_eq]
    exact Date.IsValid.iso_inj hv hq

/-- Documents are equal where their texts are. -/
theorem render_inj {x y : Json} (hx : x.IsExact) (hy : y.IsExact) : Json.render .spaced x = Json.render .spaced y ↔ x = y := by
  refine ⟨fun h => ?_,fun h => by rw [h]⟩
  have hread := Json.read?_render hx
  rw [h,Json.read?_render hy] at hread
  exact (Option.some.inj hread).symm

theorem encode_document (htype : c.type.isSerialized = true) (hnull : v ≠ .null) (hbound : c.encode v = .ok bound) :
    ∃ x, Json.ofValue .asText v = .ok x ∧ bound = .str (Json.render .spaced x) := by
  obtain ⟨_,hs,rfl⟩ := encode_serialized htype hnull hbound
  obtain ⟨x,hx,rfl⟩ := map_eq_ok.mp hs
  exact ⟨x,hx,rfl⟩

theorem judges_document (htype : c.type.isSerialized = true) (hnull : v ≠ .null) (hsound : v.IsSound)
    (hscalar : q.isScalar = true) (hnull' : q ≠ .null) (hbound : c.encode v = .ok bound)
    (hcell : Cell.ofValue bound = .ok cell) (hw : c.decode (cell.stored c.type.affinity).toValue = .ok w)
    (hbound' : c.encode q = .ok bound') (hcell' : Cell.ofValue bound' = .ok cell') : c.Judges v w q cell cell' := by
  obtain ⟨x,hx,rfl⟩ := encode_document htype hnull hbound
  obtain ⟨y,hy,rfl⟩ := encode_document htype hnull' hbound'
  cases hcell
  cases hcell'
  have hexact := Value.exact_document hsound hx
  have hexact' : y.IsExact := Value.exact_document (by cases q <;> trivial) hy
  have haffinity := ColumnType.affinity_serialized htype
  have hread : w = x.toValue := by
    have hdocument : c.decode (.str (Json.render .spaced x)) = .ok x.toValue := by
      rw [decode_serialized htype,readDocument,Json.read?_render hexact]
    rw [haffinity] at hw
    exact (Except.ok.inj (hdocument.symm.trans hw)).symm
  have hmisjudges : c.type.misjudges v w q = ColumnType.misjudgesDocument w q := by
    cases h : c.type <;> first
      | (cases q <;> first | rfl | exact absurd rfl hnull')
      | (rw [h] at htype; cases htype)
  rw [Judges,hmisjudges,haffinity,hread,Bool.eq_iff_iff]
  change (Json.render .spaced x == Json.render .spaced y) = true ↔ _
  rw [beq_iff_eq,render_inj hexact hexact']
  have hother (a : Bool) : ¬(a != a) = true := by rw [bne_self_eq_false]; exact Bool.false_ne_true
  cases q with
  | null => exact absurd rfl hnull'
  | str s =>
    cases hy
    cases x with
    | str t =>
      change _ ↔ ((t == s) != false) = true
      rw [Bool.bne_false,beq_iff_eq,Json.str.injEq]
    | _ => exact iff_of_false (fun h => by cases h) Bool.false_ne_true
  | int n =>
    cases hy
    cases x with
    | int m =>
      change _ ↔ ((Number.int m).same (.int n) != false) = true
      rw [Bool.bne_false,Number.same_int_iff,beq_iff_eq,Json.int.injEq]
    | _ => exact iff_of_false (fun h => by cases h) (hother _)
  | bool b =>
    cases hy
    cases x with
    | bool a => cases a <;> cases b <;> simp [Json.toValue,ColumnType.misjudgesDocument] <;> rfl
    | _ => exact iff_of_false (fun h => by cases h) (hother _)
  | moment m =>
    cases hy
    cases x with
    | str t =>
      change _ ↔ (false != (some t == some (Value.moment m).display)) = true
      rw [Bool.false_bne,beq_iff_eq,Option.some.injEq,Json.str.injEq]
    | _ => exact iff_of_false (fun h => by cases h) Bool.false_ne_true
  | date d =>
    cases hy
    cases x with
    | str t =>
      change _ ↔ (false != (some t == some (Value.date d).display)) = true
      rw [Bool.false_bne,beq_iff_eq,Option.some.injEq,Json.str.injEq]
    | _ => exact iff_of_false (fun h => by cases h) Bool.false_ne_true
  | _ => cases hscalar

/-- Whatever a column keeps, it is found by what the column is asked for exactly where what is read is equal to it, but
for what the column misjudges. -/
theorem judges (htakes : c.type.Takes v) (hbound : c.encode v = .ok bound) (hcell : Cell.ofValue bound = .ok cell)
    (hw : c.decode (cell.stored c.type.affinity).toValue = .ok w) (hasks : c.type.Asks q)
    (hbound' : c.encode q = .ok bound') (hcell' : Cell.ofValue bound' = .ok cell') : c.Judges v w q cell cell' := by
  by_cases hnull' : q = .null
  · rw [hnull'] at hbound' ⊢
    cases hbound'
    exact judges_null hcell'
  by_cases hnull : v = .null
  · rw [hnull] at hbound ⊢
    cases hbound
    cases hcell
    rw [Cell.stored_null] at hw
    cases hw
    exact judges_absent hnull'
  have hbare {x b : Value} (hserialized : c.type.isSerialized = false) (htruth : c.type ≠ .truth)
      (hb : c.encode x = .ok b) : b = x.bare := Except.ok.inj (hb.symm.trans (encode_bare hserialized htruth x))
  cases htype : c.type with
  | text | other s =>
    obtain rfl := hbare (by rw [htype]; rfl) (by rw [htype]; exact ColumnType.noConfusion) hbound'
    rw [htype] at hasks
    refine judges_text (by simp [htype]) ?_ hnull' hw hcell'
    cases q <;> first | rfl | exact hasks
  | document | array =>
    rw [htype] at hasks htakes
    refine judges_document (by rw [htype]; rfl) hnull ?_ ?_ hnull' hbound hcell hw hbound' hcell'
    · cases v <;> exact htakes
    · cases q <;> first | rfl | exact hasks
  | whole =>
    obtain ⟨k,hk,rfl,hmisjudges⟩ := asked_number (.inl htype) hasks hnull' hbound' hcell' v w
    rw [htype] at htakes
    obtain ⟨n,hn⟩ := ColumnType.takes_whole htakes hnull
    obtain rfl := hbare (by rw [htype]; rfl) (by rw [htype]; exact ColumnType.noConfusion) hbound
    rw [bare_of_number hn] at hcell
    exact judges_whole htype hn hk hcell hw hmisjudges
  | double =>
    obtain ⟨k,hk,rfl,hmisjudges⟩ := asked_number (.inr htype) hasks hnull' hbound' hcell' v w
    rw [htype] at htakes
    have hnumber := ColumnType.takes_double htakes hnull
    have hv : v.bare = v := by
      rcases hnumber with ⟨x,rfl⟩ | ⟨n,hn⟩
      · rfl
      · exact bare_of_number hn
    obtain rfl := hbare (by rw [htype]; rfl) (by rw [htype]; exact ColumnType.noConfusion) hbound
    rw [hv] at hcell
    exact judges_double htype hnumber hk hcell hw hmisjudges
  | truth =>
    rw [htype] at hasks htakes
    obtain ⟨a,rfl⟩ := ColumnType.takes_truth htakes hnull
    obtain ⟨b,rfl⟩ : ∃ b, q = .bool b := by
      cases q <;> first | exact hasks.elim | exact absurd rfl hnull' | exact ⟨_,rfl⟩
    exact judges_scalar (s := .boolean) htype (.inl rfl) trivial trivial hbound hcell hw hbound' hcell'
  | moment =>
    rw [htype] at hasks htakes
    obtain ⟨m,rfl,hm⟩ := ColumnType.takes_moment htakes hnull
    obtain ⟨n,rfl,hn⟩ : ∃ n, q = .moment n ∧ n.IsValid := by
      cases q <;> first | exact hasks.elim | exact absurd rfl hnull' | exact ⟨_,rfl,hasks⟩
    exact judges_scalar (s := .datetime) htype (.inr (.inl rfl)) hm hn hbound hcell hw hbound' hcell'
  | date =>
    rw [htype] at hasks htakes
    obtain ⟨d,rfl,hd⟩ := ColumnType.takes_date htakes hnull
    obtain ⟨e,rfl,he⟩ : ∃ e, q = .date e ∧ e.IsValid := by
      cases q <;> first | exact hasks.elim | exact absurd rfl hnull' | exact ⟨_,rfl,hasks⟩
    exact judges_scalar (s := .date) htype (.inr (.inr rfl)) hd he hbound hcell hw hbound' hcell'
  | bytes =>
    rw [htype] at hasks
    cases q <;> first | exact hasks.elim | exact absurd rfl hnull'

/-- What a column is asked for is bound, but for whole numbers that do not fit. -/
theorem encode_asked (hasks : c.type.Asks q) : ∃ bound, c.encode q = .ok bound ∧
    (c.type.binds q = true → ∃ cell, Cell.ofValue bound = .ok cell) ∧
    (c.type.binds q = false → Cell.ofValue bound = .error (.failure .overflow)) := by
  have hscalar := ColumnType.isScalar_of_asks hasks
  cases hserialized : c.type.isSerialized with
  | true =>
    have hbinds : c.type.binds q = true := by rw [ColumnType.binds.eq_def,hserialized,Bool.true_or]
    rw [hbinds]
    obtain ⟨bound,hbound,cell,hcell⟩ : ∃ bound, c.encode q = .ok bound ∧ ∃ cell, Cell.ofValue bound = .ok cell := by
      unfold encode
      rw [hserialized]
      cases q <;> first | exact ⟨_,rfl,_,rfl⟩ | cases hscalar
    exact ⟨bound,hbound,fun _ => ⟨cell,hcell⟩,fun h => by cases h⟩
  | false =>
    rw [ColumnType.binds.eq_def,hserialized,Bool.false_or]
    by_cases htruth : c.type = .truth
    · rw [htruth] at hasks
      cases q with
      | null => exact ⟨.null,rfl,fun _ => ⟨.null,rfl⟩,fun h => by cases h⟩
      | bool b =>
        obtain ⟨bound,hbound,hcell⟩ := encode_cell (s := .boolean) (v := .bool b) htruth (.inr trivial)
        exact ⟨bound,hbound,fun _ => ⟨_,hcell⟩,fun h => by cases h⟩
      | _ => exact hasks.elim
    · refine ⟨q.bare,encode_bare hserialized htruth q,?_⟩
      have hint (n : Int) : (Cell.fits n = true → ∃ cell, Cell.ofInt n = .ok cell) ∧
          (Cell.fits n = false → Cell.ofInt n = .error (.failure .overflow)) :=
        ⟨fun h => ⟨.int n,if_pos h⟩,fun h => if_neg (Bool.eq_false_iff.mp h)⟩
      cases q with
      | int n => exact hint n
      | bool b => exact ⟨fun _ => by cases b <;> exact ⟨_,rfl⟩,fun h => by cases h⟩
      | null | str s | moment m | date d => exact ⟨fun _ => ⟨_,rfl⟩,fun h => by cases h⟩
      | _ => cases hscalar

end Column

end Trischema
