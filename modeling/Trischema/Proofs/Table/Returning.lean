import Trischema.Proofs.Json.Documents
import Trischema.Proofs.Table.Encoding

/-!
Which values the columns of a table give back. A value is encoded for its column, bound to a cell, kept by the
affinity of the column and decoded; what is read is equal to what was written, but for what the column cannot hold.
-/

namespace Trischema

namespace ColumnType

/-- Whether a value is of the kind that a column is for. A column of texts also holds the members of constant sets of
other kinds, whatever they are. -/
def Takes : ColumnType → Value → Prop
  | _, .null => True
  | whole, v => ∃ n, v.number? = some (.int n)
  | double, v => (∃ x, v = .float x) ∨ ∃ n, v.number? = some (.int n)
  | truth, v => ∃ b, v = .bool b
  | moment, v => ∃ m, v = .moment m ∧ m.IsValid
  | date, v => ∃ d, v = .date d ∧ d.IsValid
  | bytes, v => ∃ bs, v = .bytes bs
  | document, v | array, v => v.IsSound
  | text, _ | other _, _ => True

variable {v : Value}

/-- Of what kind a value is that a column is for, unless it is absent. -/
theorem takes_whole (h : whole.Takes v) (hnull : v ≠ .null) : ∃ n, v.number? = some (.int n) := by
  cases v <;> first | exact h | exact absurd rfl hnull

theorem takes_double (h : double.Takes v) (hnull : v ≠ .null) :
    (∃ x, v = .float x) ∨ ∃ n, v.number? = some (.int n) := by
  cases v <;> first | exact h | exact absurd rfl hnull

theorem takes_truth (h : truth.Takes v) (hnull : v ≠ .null) : ∃ x, v = .bool x := by
  cases v <;> first | exact h | exact absurd rfl hnull

theorem takes_moment (h : moment.Takes v) (hnull : v ≠ .null) : ∃ m, v = .moment m ∧ m.IsValid := by
  cases v <;> first | exact h | exact absurd rfl hnull

theorem takes_date (h : date.Takes v) (hnull : v ≠ .null) : ∃ d, v = .date d ∧ d.IsValid := by
  cases v <;> first | exact h | exact absurd rfl hnull

theorem takes_bytes (h : bytes.Takes v) (hnull : v ≠ .null) : ∃ bs, v = .bytes bs := by
  cases v <;> first | exact h | exact absurd rfl hnull

/-- Whether a column gives a value back: all but what counts as no text in a column of texts, whole numbers that no
number of 64 bits with a fraction equals, distances from universal time of less than a second, and what documents do
not hold. -/
def returns : ColumnType → Value → Bool
  | _, .null => true
  | text, v | other _, v =>
    match v with
    | .bytes _ => true
    | _ => v.text?.isSome
  | double, v =>
    match v.number? with
    | some (.float x) => !x.isNan
    | some (.int n) => (Binary64.ofInt n).compareInt? n == some .eq
    | _ => true
  | moment, .moment m => m.settled == m
  | document, v | array, v => v.isDocument
  | _, _ => true

theorem affinity_serialized {type : ColumnType} (h : type.isSerialized = true) : type.affinity = .text := by
  cases type <;> first | rfl | cases h

theorem returns_double {n : Int} (hn : v.number? = some (.int n)) :
    double.returns v = ((Binary64.ofInt n).compareInt? n == some .eq) := by
  cases v with
  | null => cases hn
  | _ => simp only [returns,hn]

/-- Whether a row is found by the text of its primary key: keys are texts, whole numbers or dates. -/
def finds : ColumnType → Value → Bool
  | text, .str _ | whole, .int _ | date, .date _ => true
  | _, _ => false

end ColumnType

namespace Cell

theorem isSpace_digit {c : Char} (h : c.isDigit = true) : isSpace c = false := by
  rw [Bool.eq_false_iff]
  intro hspace
  simp only [isSpace,Bool.or_eq_true,beq_iff_eq,Bool.and_eq_true,decide_eq_true_eq] at hspace
  simp only [Char.isDigit,Bool.and_eq_true,decide_eq_true_eq] at h
  have hleast : 48 ≤ c.toNat := UInt32.le_iff_toNat_le.mp h.1
  rcases hspace with rfl | hspace
  · exact absurd hleast (by decide)
  · omega

theorem trim_eq {cs : List Char} (h : ∀ c ∈ cs, isSpace c = false) :
    ((cs.dropWhile isSpace).reverse.dropWhile isSpace).reverse = cs := by
  have hdrop {cs : List Char} (h : ∀ c ∈ cs, isSpace c = false) : cs.dropWhile isSpace = cs := by
    cases cs with
    | nil => rfl
    | cons c cs => rw [List.dropWhile_cons_of_neg (by rw [h c List.mem_cons_self]; exact Bool.false_ne_true)]
  rw [hdrop h,hdrop fun c hc => h c (List.mem_reverse.mp hc),List.reverse_reverse]

theorem splitSign_digits {cs : List Char} (h : Json.Digits cs) : splitSign cs = (false, cs) := by
  obtain ⟨c,ds,rfl⟩ := List.exists_cons_of_ne_nil h.some
  have hc := h.digits c List.mem_cons_self
  unfold splitSign
  split
  · rename_i heq
    cases heq
    cases hc
  · rename_i heq
    cases heq
    cases hc
  · rfl

theorem number?_int {n : Int} (h : fits n = true) : number? (toString n) = some (int n) := by
  have htext := Json.toString_int n
  have hdigits := Json.toDigits_digits n.natAbs
  have hspace : ∀ c ∈ (toString n).toList, isSpace c = false := by
    rw [htext]
    refine List.forall_mem_append.mpr ⟨?_,fun c hc => isSpace_digit (hdigits.digits c hc)⟩
    cases decide (n < 0) with
    | false => exact List.forall_mem_nil _
    | true => exact List.forall_mem_singleton.mpr rfl
  have hsign : splitSign (toString n).toList = (decide (n < 0), Nat.toDigits 10 n.natAbs) := by
    rw [htext]
    cases decide (n < 0) with
    | true => rfl
    | false => exact splitSign_digits hdigits
  have hall : (!(Nat.toDigits 10 n.natAbs).isEmpty && (Nat.toDigits 10 n.natAbs).all Char.isDigit && fits n) = true := by
    rw [h,List.isEmpty_eq_false_iff.mpr hdigits.some,List.all_eq_true.mpr hdigits.digits]
    rfl
  simp only [number?,trim_eq hspace,hsign,Json.digitsValue_toDigits,Json.signed_natAbs,hall,if_true]

theorem stored_null (a : Affinity) : null.stored a = null := by
  cases a <;> rfl

/-- A column of numbers keeps an equal one of a number with a fraction; zero loses its sign. -/
theorem stored_real {x : Binary64} (h : x.isNan = false) : ∃ y, (real x).stored .real = real y ∧ y.compare? x = some .eq := by
  have hstored : (real x).stored .real = if x.isZero then real .zero else real x := rfl
  rw [hstored]
  cases hzero : x.isZero with
  | false => exact ⟨x,rfl,Binary64.compare?_self h⟩
  | true =>
    cases x with
    | nan | infinite s => cases hzero
    | finite s m e =>
      obtain rfl : m = 0 := of_decide_eq_true hzero
      exact ⟨.zero,rfl,by cases s <;> simp [Binary64.zero,Binary64.compare?,Binary64.compareDyadic]⟩

/-- A cell that is missing is equal to nothing. -/
theorem holds_null (a : Affinity) (c : Cell) : null.holds a c = false := by
  cases a <;> rfl

end Cell

/-- What is bound for a value that is neither a document nor a truth value. -/
def Value.bare : Value → Value
  | .moment m => .str m.iso
  | .date d => .str d.iso
  | v => v

namespace Column

variable {c : Column} {v bound : Value} {cell : Cell}

theorem encode_bare (hserialized : c.type.isSerialized = false) (htruth : c.type ≠ .truth) (v : Value) :
    c.encode v = .ok v.bare := by
  unfold encode
  rw [hserialized,beq_eq_false_iff_ne.mpr htruth]
  cases v <;> rfl

theorem bare_of_number {n : Number} (hn : v.number? = some n) : v.bare = v := by
  cases v <;> first | rfl | cases hn

theorem ofInt_ok {n : Int} (h : Cell.ofInt n = .ok cell) : cell = .int n := by
  rw [Cell.ofInt] at h
  split at h
  · exact (Except.ok.inj h).symm
  · cases h

theorem ofValue_int {n : Int} (hv : v.number? = some (.int n)) (h : Cell.ofValue v = .ok cell) : cell = .int n := by
  have hnone := Value.text?_of_number? hv
  have hint : Cell.ofInt n = .ok cell := by
    cases v with
    | bool b => cases hv; exact h
    | int m => cases hv; exact h
    | member m => simpa only [Cell.ofValue,hnone,hv] using h
    | _ => cases hv
  exact ofInt_ok hint

theorem ofValue_float {x : Binary64} (h : Cell.ofValue (.float x) = .ok cell) :
    cell = if x.isNan then .null else .real x := (Except.ok.inj h).symm

theorem decode_text (htype : c.type = .text ∨ ∃ s, c.type = .other s) (v : Value) : c.decode v = .ok v := by
  unfold decode
  rcases htype with h | ⟨s,h⟩ <;> rw [h] <;> cases v <;> rfl

/-- A column of documents binds the text of the document of a value that is there. -/
theorem encode_serialized (htype : c.type.isSerialized = true) (hnull : v ≠ .null) (hbound : c.encode v = .ok bound) :
    ∃ s, v.toJsonText .spaced .asText = .ok s ∧ bound = .str s := by
  have hnot : v.isNull = false := Bool.eq_false_iff.mpr fun h => hnull (Value.isNull_iff.mp h)
  unfold encode at hbound
  rw [hnot,htype] at hbound
  obtain ⟨s,hs,hbound⟩ := map_eq_ok.mp hbound
  exact ⟨s,hs,hbound.symm⟩

theorem decode_serialized (htype : c.type.isSerialized = true) (s : String) : c.decode (.str s) = readDocument s := by
  unfold decode
  cases h : c.type <;> first | rfl | (rw [h] at htype; cases htype)

/-- Whether a value comes back from the cell that a column keeps for it, or something else does. -/
def Gives (c : Column) (cell : Cell) (v : Value) : Prop :=
  ∃ w, c.decode (cell.stored c.type.affinity).toValue = .ok w ∧ w.same v = c.type.returns v

/-- A column of texts gives texts and bytes back, and texts for all else. -/
theorem gives_text (htype : c.type = .text ∨ ∃ s, c.type = .other s) (hbound : c.encode v = .ok bound)
    (hcell : Cell.ofValue bound = .ok cell) : c.Gives cell v := by
  have hencode := encode_bare (c := c) (by rcases htype with h | ⟨s,h⟩ <;> rw [h] <;> rfl)
    (by rcases htype with h | ⟨s,h⟩ <;> exact h ▸ ColumnType.noConfusion) v
  have hdecode := decode_text htype
  have haffinity : c.type.affinity = .text := by rcases htype with h | ⟨s,h⟩ <;> (rw [h]; rfl)
  have hreturns : c.type.returns v = ColumnType.text.returns v := by
    rcases htype with h | ⟨s,h⟩
    · rw [h]
    · rw [h]
      cases v <;> rfl
  rw [Gives,haffinity,hreturns]
  simp only [hdecode,Except.ok.injEq,exists_eq_left']
  cases hencode.symm.trans hbound
  have hint {n : Int} (hn : v.number? = some (.int n)) (hbare : v.bare = v) :
      ((cell.stored .text).toValue.same v) = ColumnType.text.returns v := by
    rw [hbare] at hcell
    rw [ofValue_int hn hcell]
    have hnone := Value.text?_of_number? hn
    have hfalse (s : String) : (Value.str s).same v = false := by
      refine Bool.eq_false_iff.mpr fun hsame => ?_
      rcases Value.same_str_iff.mp hsame with htext | rfl
      · rw [hnone] at htext
        cases htext
      · cases hn
    have hother : ColumnType.text.returns v = v.text?.isSome := by cases v <;> first | rfl | cases hn
    rw [hother,hnone]
    exact hfalse _
  cases v with
  | null => cases hcell; rfl
  | bool b => exact hint rfl rfl
  | int n => exact hint rfl rfl
  | float x =>
    rw [ofValue_float hcell]
    cases hnan : x.isNan with
    | true => rfl
    | false => rfl
  | str s => cases hcell; exact (Value.same_str s s).mpr rfl
  | bytes bs => cases hcell; exact beq_self_eq_true bs
  | date d => cases hcell; rfl
  | moment m => cases hcell; rfl
  | member m =>
    obtain ⟨cls,mixin,name,value⟩ := m
    cases mixin with
    | plain => cases hcell
    | integer =>
      cases value with
      | int n => exact hint rfl rfl
      | _ => cases hcell
    | text =>
      cases value with
      | str s => cases hcell; exact (Value.same_str s s).mpr rfl
      | _ => cases hcell
  | _ => cases hcell

/-- A column of whole numbers gives all back that counts as one. -/
theorem gives_whole (htype : c.type = .whole) {n : Int} (hn : v.number? = some (.int n)) (hbound : c.encode v = .ok bound)
    (hcell : Cell.ofValue bound = .ok cell) : c.Gives cell v := by
  have hencode := encode_bare (c := c) (by rw [htype]; rfl) (by rw [htype]; exact ColumnType.noConfusion) v
  rw [bare_of_number hn] at hencode
  cases hencode.symm.trans hbound
  have hreturns : c.type.returns v = true := by
    rw [htype]
    cases v <;> rfl
  rw [ofValue_int hn hcell]
  refine ⟨.int n,by unfold decode; rw [htype]; rfl,?_⟩
  rw [hreturns,Value.same_of_number rfl hn,Number.same_int]

/-- A column of numbers gives back what equals a number of 64 bits with a fraction. -/
theorem gives_double (htype : c.type = .double) (htakes : (∃ x, v = .float x) ∨ ∃ n, v.number? = some (.int n))
    (hbound : c.encode v = .ok bound) (hcell : Cell.ofValue bound = .ok cell) : c.Gives cell v := by
  have hencode := encode_bare (c := c) (by rw [htype]; rfl) (by rw [htype]; exact ColumnType.noConfusion) v
  have hdecode (x : Binary64) : c.decode (.float x) = .ok (.float x) := by unfold decode; rw [htype]; rfl
  rcases htakes with ⟨x,rfl⟩ | ⟨n,hn⟩
  · cases hencode.symm.trans hbound
    have hreturns : c.type.returns (.float x) = !x.isNan := by rw [htype]; rfl
    rw [Gives,hreturns,htype,ofValue_float hcell]
    cases hnan : x.isNan with
    | true => exact ⟨.null,rfl,rfl⟩
    | false =>
      obtain ⟨y,hy,hcompare⟩ := Cell.stored_real hnan
      refine ⟨.float y,?_,?_⟩
      · change c.decode (Cell.stored .real (.real x)).toValue = _
        rw [hy]
        exact hdecode y
      · rw [Value.same_of_number rfl rfl,Number.same]
        change (y.compare? x == some .eq && _) = true
        rw [hcompare]
        rfl
  · have hreturns : c.type.returns v = ((Binary64.ofInt n).compareInt? n == some .eq) := by
      rw [htype]
      exact ColumnType.returns_double hn
    rw [bare_of_number hn] at hencode
    cases hencode.symm.trans hbound
    rw [Gives,hreturns,htype,ofValue_int hn hcell]
    refine ⟨_,hdecode (.ofInt n),?_⟩
    rw [Value.same_of_number rfl hn]
    change ((Binary64.ofInt n).compareInt? n == some .eq && some (compare (0 : Int) 0) == some .eq) = _
    exact Bool.and_true _

/-- A moment is the same without a distance of less than a second exactly when it has none. -/
theorem settled_same (m : Moment) : m.settled.sameInstant m = (m.settled == m) := by
  obtain ⟨date,hour,minute,second,microsecond,offset⟩ := m
  rw [Bool.eq_iff_iff,beq_iff_eq]
  cases offset with
  | none => simp [Moment.settled,Moment.sameInstant,Moment.comparable,Moment.instant,Moment.wall]
  | some o =>
    simp only [Moment.settled,Moment.sameInstant,Moment.comparable,Moment.instant,Moment.wall,Option.map_some,
      Option.isSome_some,Option.getD_some,Moment.mk.injEq,Option.some.injEq,true_and,Bool.and_eq_true,beq_iff_eq]
    omega

/-- A column of truth values, moments or dates gives back what the parts of them that it keeps make. -/
theorem gives_scalar {s : Scalar} (htype : c.type = .ofScalar s) (hholds : Holds s v)
    (hreturns : v.settled.same v = c.type.returns v) (hbound : c.encode v = .ok bound)
    (hcell : Cell.ofValue bound = .ok cell) : c.Gives cell v := by
  obtain ⟨bound',hbound',hcell'⟩ := encode_cell htype hholds
  cases hbound.symm.trans hbound'
  cases hcell.symm.trans hcell'
  exact ⟨v.settled,by rw [stored_cell htype hholds]; exact decode_cell htype hholds,hreturns⟩

/-- A column of documents gives back what is made of what documents hold. -/
theorem gives_document (htype : c.type.isSerialized = true) (hnull : v ≠ .null) (hv : v.IsSound)
    (hbound : c.encode v = .ok bound) (hcell : Cell.ofValue bound = .ok cell) : c.Gives cell v := by
  obtain ⟨s,hs,rfl⟩ := encode_serialized htype hnull hbound
  cases hcell
  obtain ⟨w,hread,hsame⟩ := Value.read_document hv hs
  refine ⟨w,?_,?_⟩
  · rw [ColumnType.affinity_serialized htype]
    exact (decode_serialized htype s).trans hread
  · rw [hsame]
    cases h : c.type <;> first
      | (cases v <;> rfl)
      | (rw [h] at htype; cases htype)

theorem gives_null (hbound : c.encode .null = .ok bound) (hcell : Cell.ofValue bound = .ok cell) :
    c.Gives cell .null := by
  cases hbound
  cases hcell
  have hreturns : c.type.returns .null = true := by cases c.type <;> rfl
  exact ⟨.null,by rw [Cell.stored_null]; rfl,by rw [hreturns]; rfl⟩

theorem gives_bytes (htype : c.type = .bytes) {bs : List UInt8} (hbound : c.encode (.bytes bs) = .ok bound)
    (hcell : Cell.ofValue bound = .ok cell) : c.Gives cell (.bytes bs) := by
  have hencode := encode_bare (c := c) (by rw [htype]; rfl) (by rw [htype]; exact ColumnType.noConfusion) (.bytes bs)
  cases hencode.symm.trans hbound
  cases hcell
  rw [Gives,htype]
  exact ⟨.bytes bs,by unfold decode; rw [htype]; rfl,beq_self_eq_true bs⟩

/-- A column that prefers whole numbers keeps one of a value that is there. -/
theorem stored_integer (haffinity : c.type.affinity = .integer) (htakes : c.type.Takes v) (hnull : v ≠ .null)
    (hbound : c.encode v = .ok bound) (hcell : Cell.ofValue bound = .ok cell) :
    ∃ n, cell.stored c.type.affinity = .int n := by
  rw [haffinity]
  cases htype : c.type with
  | whole =>
    rw [htype] at htakes
    obtain ⟨n,hn⟩ := ColumnType.takes_whole htakes hnull
    have hencode := encode_bare (c := c) (by rw [htype]; rfl) (by rw [htype]; exact ColumnType.noConfusion) v
    rw [bare_of_number hn] at hencode
    cases hencode.symm.trans hbound
    exact ⟨n,by rw [ofValue_int hn hcell]; rfl⟩
  | truth =>
    rw [htype] at htakes
    obtain ⟨x,rfl⟩ := ColumnType.takes_truth htakes hnull
    obtain ⟨bound',hbound',hcell'⟩ := encode_cell (c := c) (s := .boolean) (v := .bool x) htype (.inr trivial)
    cases hbound.symm.trans hbound'
    cases hcell.symm.trans hcell'
    exact ⟨_,rfl⟩
  | _ => rw [htype] at haffinity; cases haffinity

/-- What a column gives back of a value of the kind that it is for. -/
theorem gives (htakes : c.type.Takes v) (hbound : c.encode v = .ok bound) (hcell : Cell.ofValue bound = .ok cell) :
    c.Gives cell v := by
  by_cases hnull : v = .null
  · rw [hnull] at hbound ⊢
    exact gives_null hbound hcell
  · cases htype : c.type with
    | text => exact gives_text (.inl htype) hbound hcell
    | other s => exact gives_text (.inr ⟨s,htype⟩) hbound hcell
    | whole =>
      rw [htype] at htakes
      obtain ⟨n,hn⟩ := ColumnType.takes_whole htakes hnull
      exact gives_whole htype hn hbound hcell
    | double =>
      rw [htype] at htakes
      exact gives_double htype (ColumnType.takes_double htakes hnull) hbound hcell
    | truth =>
      rw [htype] at htakes
      obtain ⟨x,rfl⟩ := ColumnType.takes_truth htakes hnull
      refine gives_scalar (s := .boolean) htype (.inr trivial) ?_ hbound hcell
      rw [htype]
      cases x <;> rfl
    | moment =>
      rw [htype] at htakes
      obtain ⟨x,rfl,hx⟩ := ColumnType.takes_moment htakes hnull
      refine gives_scalar (s := .datetime) htype (.inr hx) ?_ hbound hcell
      rw [htype]
      exact settled_same x
    | date =>
      rw [htype] at htakes
      obtain ⟨x,rfl,hx⟩ := ColumnType.takes_date htakes hnull
      refine gives_scalar (s := .date) htype (.inr hx) ?_ hbound hcell
      rw [htype]
      exact beq_self_eq_true x
    | bytes =>
      rw [htype] at htakes
      obtain ⟨x,rfl⟩ := ColumnType.takes_bytes htakes hnull
      exact gives_bytes htype hbound hcell
    | document | array =>
      rw [htype] at htakes
      refine gives_document (by rw [htype]; rfl) hnull ?_ hbound hcell
      cases v <;> exact htakes

end Column

end Trischema
