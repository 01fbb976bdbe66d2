import Trischema.Proofs.Value.Equivalence

/-!
What values are filed under. Equal values are filed alike across all kinds, but for value objects: these are filed under
the listings of what they hold, and equal values may be listed in different ways.
-/

namespace Trischema

namespace Number

/-- A real number as it is filed: minus one is filed with minus two. -/
def settled (r : Number) : Number := if r.compare? (int (-1)) = some .eq then int (-2) else r

/-- A number as it is filed: one without an imaginary part is filed with the real numbers. -/
def filedAs (n : Number) : Number := if n.parts.2.compare? (int 0) = some .eq then n.parts.1.settled else n

theorem parts_parts (n : Number) : n.parts.1.parts = (n.parts.1, int 0) := by
  cases n <;> rfl

theorem settled_same {m n : Number} (hm : m.parts = (m, int 0)) (hn : n.parts = (n, int 0))
    (h : m.compare? n = some .eq) : m.settled.same n.settled = true := by
  rw [settled,settled,compare?_congr h]
  split
  · exact same_int _
  · rw [same,hm,hn,h]
    rfl

/-- Numbers that are equal are filed as equal ones. -/
theorem filedAs_same {m n : Number} (h : m.same n = true) : m.filedAs.same n.filedAs = true := by
  have hparts := h
  rw [same,Bool.and_eq_true,beq_iff_eq,beq_iff_eq] at hparts
  rw [filedAs,filedAs,compare?_congr hparts.2]
  split
  · exact settled_same m.parts_parts n.parts_parts hparts.1
  · exact h

end Number

namespace Value

theorem number?_filedReal (x : Binary64) : (filedReal x).number? = some (Number.float x).settled := by
  have hone : x.toInt? = some (-1) ↔ (Number.float x).compare? (.int (-1)) = some .eq := Binary64.toInt?_eq_some
  unfold filedReal Number.settled
  by_cases h : x.toInt? = some (-1)
  · rw [if_pos h,if_pos (hone.mp h)]
    rfl
  · rw [if_neg h,if_neg (mt hone.mpr h)]
    rfl

/-- A number is filed under a number. -/
theorem number?_filing {v : Value} {n : Number} (hv : v.number? = some n) : v.filing.number? = some n.filedAs := by
  have hint {v : Value} {k : Int} (hk : v.filing = .int (if k = -1 then -2 else k)) :
      v.filing.number? = some (Number.int k).filedAs := by
    have hreal : (Number.int k).filedAs = (Number.int k).settled := rfl
    rw [hk,hreal,Number.settled]
    simp only [Number.compare?_int]
    split <;> rfl
  cases v with
  | bool b => cases hv; exact hint rfl
  | int k => cases hv; exact hint rfl
  | float x => cases hv; exact number?_filedReal x
  | complex re im =>
    cases hv
    have hzero : im.toInt? = some 0 ↔ (Number.float im).compare? (.int 0) = some .eq := Binary64.toInt?_eq_some
    have hfiling : (complex re im).filing = if im.toInt? = some 0 then filedReal re else complex re im := rfl
    rw [hfiling]
    unfold Number.filedAs Number.parts
    by_cases h : im.toInt? = some 0
    · rw [if_pos h,if_pos (hzero.mp h)]
      exact number?_filedReal re
    · rw [if_neg h,if_neg (mt hzero.mpr h)]
      rfl
  | member x =>
    obtain ⟨cls,mixin,name,value⟩ := x
    cases mixin <;> cases value <;> cases hv
    exact hint rfl
  | _ => cases hv

theorem filing_word {v : Value} {s : String} (hv : v.word? = some s) : v.filing = filedBytes (packed s) := by
  rcases word?_iff.mp hv with htext | rfl
  · exact filing_of_text? htext
  · rfl

theorem same_filedBytes (bs : List UInt8) : (filedBytes bs).same (filedBytes bs) = true := by
  unfold filedBytes
  split
  · rfl
  · exact beq_self_eq_true bs

theorem filing_single {v : Value} (hv : v.isSingle = true) (h : v.same v = true) : v.filing.same v.filing = true := by
  cases v with
  | bytes bs => exact same_filedBytes bs
  | member x =>
    obtain ⟨cls,mixin,name,value⟩ := x
    cases mixin with
    | plain => exact same_filedBytes _
    | integer | text => cases value <;> first | exact h | cases hv
  | null | date | callable => exact h
  | _ => cases hv

end Value

mutual

/-- Whether the value objects that two values are filed by are listed alike: the values themselves, those under the ids
of entities and enumerations, and those in tuples. -/
def Value.listedAlike (a b : Value) : Bool :=
  match a with
  | .tuple xs =>
    match b with
    | .tuple ys => allListedAlike xs ys
    | _ => true
  | .object o =>
    match b with
    | .object o' =>
      match o.base? with
      | some .valueObject => sameAll (o.attrs.map (·.2.shown)) (o'.attrs.map (·.2.shown))
      | some _ => namedListedAlike "id" o.attrs o'.attrs
      | none => true
    | _ => true
  | .relationship r =>
    match b with
    | .relationship r' =>
      targetListedAlike r.target r'.target && directionListedAlike r.direction r'.direction
        && cardinalityListedAlike r.cardinality r'.cardinality && r.inverse.listedAlike r'.inverse
        && r.joinTable.listedAlike r'.joinTable
    | _ => true
  | _ => true
termination_by structural a

def targetListedAlike : Target Value → Target Value → Bool
  | .resolver v, .resolver w => v.listedAlike w
  | _, _ => true
termination_by structural t => t

def directionListedAlike : Choice Direction Value → Choice Direction Value → Bool
  | .other v, .other w => v.listedAlike w
  | _, _ => true
termination_by structural d => d

def cardinalityListedAlike : Option (Choice Cardinality Value) → Option (Choice Cardinality Value) → Bool
  | some (.other v), some (.other w) => v.listedAlike w
  | _, _ => true
termination_by structural c => c

def allListedAlike : List Value → List Value → Bool
  | x :: xs, y :: ys => x.listedAlike y && allListedAlike xs ys
  | _, _ => true
termination_by structural xs => xs

def namedListedAlike (name : String) : List (String × Value) → List (String × Value) → Bool
  | [], _ => true
  | (k, v) :: es, fs =>
    if k = name then (fs.lookup name).all (fun w => v.listedAlike w) else namedListedAlike name es fs
termination_by structural es => es

end

section Filing

variable {p : Population} {a b v w : Value} {o o' : Object Value} {r r' : Relationship Value} {name : String}

/-- Whether a value is filed with the values that it is equal to, but for value objects that are listed otherwise. -/
def Value.FiledWith (p : Population) (a : Value) : Prop :=
  ∀ b : Value, b.IsOf p → a.same b = true → a.filing.same b.filing = a.listedAlike b

theorem filingNamed_of_lookup {es : List (String × Value)} (h : es.lookup name = some v) :
    filingNamed name es = v.filing := by
  induction es with
  | nil => cases h
  | cons e es ih =>
    obtain ⟨k,u⟩ := e
    rw [List.lookup_cons] at h
    rw [filingNamed]
    by_cases hk : k = name
    · rw [if_pos hk]
      rw [hk,beq_self_eq_true] at h
      cases h
      rfl
    · rw [if_neg hk]
      rw [beq_false_of_ne (Ne.symm hk)] at h
      exact ih h

theorem namedListedAlike_of_lookup {es fs : List (String × Value)} (h : es.lookup name = some v)
    (h' : fs.lookup name = some w) : namedListedAlike name es fs = v.listedAlike w := by
  induction es with
  | nil => cases h
  | cons e es ih =>
    obtain ⟨k,u⟩ := e
    rw [List.lookup_cons] at h
    rw [namedListedAlike]
    by_cases hk : k = name
    · rw [if_pos hk,h',Option.all_some]
      rw [hk,beq_self_eq_true] at h
      cases h
      rfl
    · rw [if_neg hk]
      rw [beq_false_of_ne (Ne.symm hk)] at h
      exact ih h

theorem same_class {c d : Class Value} (hname : c.name = d.name) : (Value.type (.cls c)).same (.type (.cls d)) = true := by
  refine same_type_iff.mpr ⟨_,rfl,TypeExpr.alike_iff.mpr ⟨?_,congrArg ([·]) hname⟩⟩
  rw [TypeExpr.listing,TypeExpr.listing,Class.listing,Class.listing,Class.isExactly,Class.isExactly,Class.isA,Class.isA,
    Class.lineage,Class.lineage,hname]

theorem sameAll_filing {xs ys : List Value} (ih : ∀ x ∈ xs, x.FiledWith p) (hys : ∀ y ∈ ys, y.IsOf p)
    (h : List.Forall₂ (fun x y => x.same y = true) xs ys) :
    sameAll (filingAll xs) (filingAll ys) = allListedAlike xs ys := by
  induction h with
  | nil => rfl
  | cons hxy _ ihrest =>
    rw [List.forall_mem_cons] at ih hys
    rw [filingAll,filingAll,sameAll,allListedAlike,ih.1 _ hys.1 hxy,ihrest ih.2 hys.2]

theorem filing_values (hbase : o.base? = some .valueObject) :
    (Value.object o).filing = .tuple (o.attrs.map (·.2.shown)) := by
  unfold Object.base? at hbase
  simp only [Value.filing,hbase]

theorem filing_ids {base : Builtin} (hbase : o.base? = some base) (hother : base ≠ .valueObject) :
    (Value.object o).filing = .tuple [.type (.cls o.cls), filingNamed "id" o.attrs] := by
  unfold Object.base? at hbase
  simp only [Value.filing,hbase]

theorem filing_instances (hbase : o.base? = none) : (Value.object o).filing = .object o := by
  unfold Object.base? at hbase
  simp only [Value.filing,hbase]

theorem Object.Same.filing (ho : (Value.object o).IsOf p) (ho' : (Value.object o').IsOf p)
    (ih : ∀ v ∈ (Value.object o).parts, v.FiledWith p) (h : o.Same o') :
    (Value.object o).filing.same (Value.object o').filing = (Value.object o).listedAlike (.object o') := by
  have hname : o.cls.name = o'.cls.name := by
    cases h with
    | values _ hname | ids _ _ hname => exact hname
    | instances _ hidentity => rw [ho.fits,ho'.fits,hidentity]
  have hbase := base?_congr hname
  cases h with
  | values hvalue =>
    rw [filing_values hvalue,filing_values (hbase.symm.trans hvalue)]
    simp only [Value.listedAlike,hvalue]
    rfl
  | ids hsome hother _ hv hw hids =>
    have hids := ih _ (attribute_mem_parts hv) _ (ho'.part (attribute_mem_parts hw)) hids
    have hclass := same_class hname
    rw [filing_ids hsome hother,filing_ids (hbase.symm.trans hsome) hother,filingNamed_of_lookup hv,
      filingNamed_of_lookup hw]
    simp only [Value.listedAlike,hsome]
    rw [namedListedAlike_of_lookup hv hw,← hids]
    exact (congrArg (· && _) hclass).trans (Bool.and_true _)
  | instances hnone hidentity =>
    rw [filing_instances hnone,filing_instances (hbase.symm.trans hnone)]
    simp only [Value.listedAlike,hnone]
    exact same_object_iff.mpr (.instances hnone hidentity)

theorem same_names (ss : List String) :
    (Value.tuple (ss.map fun s => filedBytes (packed s))).same (.tuple (ss.map fun s => filedBytes (packed s))) = true := by
  refine same_tuple_iff.mpr ⟨_,rfl,List.forall₂_same.mpr fun x hx => ?_⟩
  obtain ⟨s,_,rfl⟩ := List.mem_map.mp hx
  exact Value.same_filedBytes _

theorem same_targetFiling {t t' : Target Value}
    (ih : ∀ v ∈ t.choice.parts, v.FiledWith p) (hparts : ∀ v ∈ t'.choice.parts, v.IsOf p) (h : t.choice.Same t'.choice) :
    (targetFiling t).same (targetFiling t') = targetListedAlike t t' := by
  cases t <;> cases t' <;> simp only [Target.choice,Choice.same_known,Choice.same_other,Choice.not_same_other,
    Choice.not_same_known,Sum.inl.injEq,Sum.inr.injEq,reduceCtorEq] at h
  · exact same_class h
  · subst h
    exact Value.same_filedBytes _
  · exact ih _ (List.mem_singleton_self _) _ (hparts _ (List.mem_singleton_self _)) h

theorem same_directionFiling {d d' : Choice Direction Value} (ih : ∀ v ∈ d.parts, v.FiledWith p)
    (hparts : ∀ v ∈ d'.parts, v.IsOf p) (h : d.Same d') :
    (directionFiling d).same (directionFiling d') = directionListedAlike d d' := by
  cases h with
  | known d => exact Value.same_filedBytes _
  | other h => exact ih _ (List.mem_singleton_self _) _ (hparts _ (List.mem_singleton_self _)) h

theorem same_cardinalityFiling {c c' : Option (Choice Cardinality Value)}
    (ih : ∀ v ∈ (Choice.ofOption c).parts, v.FiledWith p) (hparts : ∀ v ∈ (Choice.ofOption c').parts, v.IsOf p)
    (h : (Choice.ofOption c).Same (Choice.ofOption c')) :
    (cardinalityFiling c).same (cardinalityFiling c') = cardinalityListedAlike c c' := by
  rcases c with _ | ⟨k | v⟩ <;> rcases c' with _ | ⟨k' | w⟩ <;> simp only [Choice.ofOption,Choice.same_known,
    Choice.same_other,Choice.not_same_other,Choice.not_same_known,Option.some_inj,reduceCtorEq] at h
  · rfl
  · subst h
    exact Value.same_filedBytes _
  · exact ih _ (List.mem_singleton_self _) _ (hparts _ (List.mem_singleton_self _)) h

theorem Relationship.Same.filing (hr' : (Value.relationship r').IsOf p)
    (ih : ∀ v ∈ (Value.relationship r).parts, v.FiledWith p) (h : r.Same r') :
    (Value.relationship r).filing.same (Value.relationship r').filing =
      (Value.relationship r).listedAlike (.relationship r') := by
  have htarget := same_targetFiling (fun v hv => ih v (by simp [Value.parts,hv]))
    (fun v hv => hr'.part (by simp [Value.parts,hv])) h.target
  have hdirection := same_directionFiling (fun v hv => ih v (by simp [Value.parts,hv]))
    (fun v hv => hr'.part (by simp [Value.parts,hv])) h.direction
  have hcardinality := same_cardinalityFiling (fun v hv => ih v (by simp [Value.parts,hv]))
    (fun v hv => hr'.part (by simp [Value.parts,hv])) h.cardinality
  have hinverse := ih r.inverse (by simp [Value.parts]) _ (hr'.part (by simp [Value.parts])) h.inverse
  have hjoinTable := ih r.joinTable (by simp [Value.parts]) _ (hr'.part (by simp [Value.parts])) h.joinTable
  have hflag (b : Bool) : (Value.int (if b then 1 else 0)).same (.int (if b then 1 else 0)) = true := Number.same_int _
  simp only [Value.filing,Value.listedAlike]
  rw [← h.edgeType,← h.owner,← h.joinColumns,← h.cascade,← h.eager,← h.edgeProperties,← htarget,← hdirection,
    ← hcardinality,← hinverse,← hjoinTable]
  change sameAll [_, _, _, _, _, _, _, _, _, _, _] [_, _, _, _, _, _, _, _, _, _, _] = _
  simp only [sameAll,Value.same_filedBytes,hflag,same_names,Bool.true_and,Bool.and_true,Bool.and_assoc]

namespace Value

theorem IsOf.filedWith (ha : a.IsOf p) : a.FiledWith p := by
  induction ha with
  | @intro a fits hparts ih =>
    have ha : a.IsOf p := .intro fits hparts
    intro b hb hab
    cases a using Value.kinds with
    | number v m hv =>
      rw [number_same hv] at hab
      obtain ⟨n,hn,hmn⟩ := (Option.any_eq_true _ _).mp hab
      rw [same_of_number (number?_filing hv) (number?_filing hn),Number.filedAs_same hmn]
      cases a <;> first | rfl | cases hv
    | word v s hv =>
      rw [same_word_iff hv] at hab
      rw [filing_word hv,filing_word hab,same_filedBytes]
      cases a <;> first | rfl | cases hv
    | single v hv =>
      obtain rfl := eq_of_same_single ha hb hv hab
      rw [filing_single hv hab]
      cases b <;> first | rfl | cases hv
    | moment m =>
      obtain ⟨n,rfl,_⟩ := moment_same_iff.mp hab
      exact hab
    | type t =>
      obtain ⟨u,rfl,_⟩ := same_type_iff.mp hab
      exact hab
    | list xs =>
      obtain ⟨ys,rfl,_⟩ := same_list_iff.mp hab
      exact hab
    | tuple xs =>
      obtain ⟨ys,rfl,hxy⟩ := same_tuple_iff.mp hab
      exact sameAll_filing ih (fun _ => hb.part) hxy
    | set xs =>
      obtain ⟨ys,rfl,_⟩ := same_set_iff.mp hab
      exact hab
    | mapping es =>
      obtain ⟨fs,rfl,_⟩ := same_mapping_iff.mp hab
      exact hab
    | object o =>
      obtain ⟨o',rfl⟩ := eq_object_of_same hab
      exact (same_object_iff.mp hab).filing ha hb ih
    | relationship r =>
      obtain ⟨r',rfl⟩ := eq_relationship_of_same hab
      exact (same_relationship_iff.mp hab).filing hb ih

end Value

end Filing

mutual

/-- Whether two values are plain data of one form: of one kind, and of one form wherever they hold something. Times and
binary numbers, which are written in several ways, are written in the same. -/
def Value.sameForm (a b : Value) : Bool :=
  match a with
  | .list xs =>
    match b with
    | .list ys => allSameForm xs ys
    | _ => false
  | .tuple xs =>
    match b with
    | .tuple ys => allSameForm xs ys
    | _ => false
  | a =>
    match a, b with
    | .null, .null | .bool _, .bool _ | .int _, .int _ | .str _, .str _ | .bytes _, .bytes _ | .date _, .date _
    | .identifier _, .identifier _ => true
    | .float x, .float y => x == y
    | .moment m, .moment n => m == n
    | _, _ => false
termination_by structural a

def allSameForm : List Value → List Value → Bool
  | [], [] => true
  | x :: xs, y :: ys => x.sameForm y && allSameForm xs ys
  | _, _ => false
termination_by structural xs => xs

end

section Forms

variable {p : Population} {a b : Value}

/-- Whether a value is the same as those of its form that it is equal to, and listed by a text alone. -/
def Value.HasForm (a : Value) : Prop := ∀ b : Value, a.same b = true → a.sameForm b = true → b = a ∧ a.placed = []

theorem all_hasForm {xs ys : List Value} (ih : ∀ x ∈ xs, x.HasForm) (h : List.Forall₂ (fun x y => x.same y = true) xs ys)
    (hform : allSameForm xs ys = true) : ys = xs ∧ ∀ x ∈ xs, x.placed = [] := by
  induction h with
  | nil => exact ⟨rfl,fun _ h => nomatch h⟩
  | cons hxy _ ihrest =>
    rw [List.forall_mem_cons] at ih
    obtain ⟨hfirst,hrest⟩ := Bool.and_eq_true_iff.mp hform
    obtain ⟨rfl,hplaced⟩ := ih.1 _ hxy hfirst
    obtain ⟨rfl,hplaced'⟩ := ihrest ih.2 hrest
    exact ⟨rfl,List.forall_mem_cons.mpr ⟨hplaced,hplaced'⟩⟩

theorem placedAll_eq_nil {xs : List Value} (h : ∀ x ∈ xs, x.placed = []) : placedAll xs = [] := by
  induction xs with
  | nil => rfl
  | cons x xs ih =>
    rw [List.forall_mem_cons] at h
    rw [placedAll,h.1,ih h.2]
    rfl

namespace Value

theorem IsOf.hasForm (ha : a.IsOf p) : a.HasForm := by
  induction ha with
  | @intro a fits hparts ih =>
    intro b hab hform
    cases a with
    | list xs =>
      obtain ⟨ys,rfl,hxy⟩ := same_list_iff.mp hab
      obtain ⟨rfl,hplaced⟩ := all_hasForm ih hxy hform
      exact ⟨rfl,placedAll_eq_nil hplaced⟩
    | tuple xs =>
      obtain ⟨ys,rfl,hxy⟩ := same_tuple_iff.mp hab
      obtain ⟨rfl,hplaced⟩ := all_hasForm ih hxy hform
      exact ⟨rfl,placedAll_eq_nil hplaced⟩
    | null =>
      cases b <;> first | exact ⟨rfl,rfl⟩ | cases hform
    | bool x =>
      cases b with
      | bool y => cases x <;> cases y <;> first | exact ⟨rfl,rfl⟩ | cases hab
      | _ => cases hform
    | int m =>
      cases b with
      | int n => exact ⟨congrArg int (eq_of_beq ((Number.same_int_iff m n).symm.trans hab)).symm,rfl⟩
      | _ => cases hform
    | float x =>
      cases b with
      | float y => exact ⟨congrArg float (eq_of_beq hform).symm,rfl⟩
      | _ => cases hform
    | str s =>
      cases b with
      | str t => exact ⟨congrArg str ((same_str s t).mp hab).symm,rfl⟩
      | _ => cases hform
    | bytes bs =>
      cases b with
      | bytes bs' => exact ⟨congrArg bytes (eq_of_beq hab).symm,rfl⟩
      | _ => cases hform
    | date d =>
      cases b with
      | date d' => exact ⟨congrArg date (eq_of_beq hab).symm,rfl⟩
      | _ => cases hform
    | moment m =>
      cases b with
      | moment n => exact ⟨congrArg moment (eq_of_beq hform).symm,rfl⟩
      | _ => cases hform
    | identifier s =>
      cases b with
      | identifier t => exact ⟨congrArg identifier (eq_of_beq hab).symm,rfl⟩
      | _ => cases hform
    | complex | set | mapping | member | object | type | callable | relationship => cases hform

theorem same_shown {v : Value} (h : v.placed = []) : v.shown.same v.shown = true := by
  rw [shown,h]
  exact same_filedBytes _

/-- Value objects that hold plain data of one form are listed alike when they are equal. -/
theorem listedAlike_of_form {o o' : Object Value} (ho : (object o).IsOf p) (hbase : o.base? = some .valueObject)
    (h : (object o).same (object o') = true)
    (hform : allSameForm (o.attrs.map (·.2)) (o'.attrs.map (·.2)) = true) : (object o).listedAlike (object o') = true := by
  rw [same_values hbase,Bool.and_eq_true,sameAll_iff] at h
  have hvalues : ∀ v ∈ o.attrs.map (·.2), v.HasForm := fun v hv => (ho.part hv).hasForm
  obtain ⟨hattrs,hplaced⟩ := all_hasForm hvalues h.2 hform
  have hshown (es : List (String × Value)) : es.map (·.2.shown) = (es.map (·.2)).map shown := by
    rw [List.map_map]
    rfl
  simp only [listedAlike,hbase]
  rw [hshown,hshown,hattrs,sameAll_iff]
  exact forall₂_map_map fun v hv => same_shown (hplaced v hv)

end Value

end Forms

namespace Value

variable {p : Population} {a b c : Value}

/-- Equality of the values of a population goes either way and from one value to the next, whatever their kinds are.
Values that are equal are filed alike exactly when the value objects that they are filed by are listed alike; so
identifiers and texts always are, and entities and enumerations are when their ids are. Value objects are listed alike
where all that they hold is plain data of one form. -/
theorem equal_filed (ha : a.IsOf p) (hb : b.IsOf p) (hc : c.IsOf p) :
    a.same b = b.same a ∧
    (a.same b = true → b.same c = true → a.same c = true) ∧
    (a.same b = true → a.filing.same b.filing = a.listedAlike b) ∧
    ∀ o o' : Object Value, a = .object o → b = .object o' → o.base? = some .valueObject → a.same b = true →
      allSameForm (o.attrs.map (·.2)) (o'.attrs.map (·.2)) = true → a.filing.same b.filing = true := by
  refine ⟨same_swap ha hb,same_trans ha hb hc,ha.filedWith b hb,?_⟩
  rintro o o' rfl rfl hbase h hform
  rw [ha.filedWith _ hb h]
  exact listedAlike_of_form ha hbase h hform

/-- Value objects without bases of their own. -/
def valueClass (name : String) : Class Value :=
  ⟨.defined name 0 [.builtin .valueObject, .builtin .object], none⟩

/-- A stay with its nights, its guest and its bill. -/
def stay (identity : Nat) (nights guest bill : Value) : Value := .object {
  identity
  cls := valueClass "Stay"
  attrs := [("nights", nights), ("guest", guest), ("bill", bill)]
  shared := []
  pending := [] }

/-- A journey from one stay to another. -/
def journey (identity : Nat) (here there : Value) : Value := .object {
  identity
  cls := valueClass "Journey"
  attrs := [("here", here), ("there", there)]
  shared := []
  pending := [] }

def hotel : Population := ⟨[{ cls := valueClass "Stay" }], fun _ => (valueClass "Stay").name⟩

/-- A bill with the price of a room and that of the food. -/
def bill (room food : Value) : Value := .mapping [(.str "room", room), (.str "food", food)]

/-- The number of nights as a number and as a truth value, the guest as an identifier and as a text, and the bill in
either order; and stays that hold the same. -/
theorem equal_filed_stays :
    let booked := stay 1 (.int 1) (.identifier "ada") (bill (.int 1) (.int 2))
    let kept := stay 2 (.bool true) (.str "ada") (.mapping [(.str "food", .int 2), (.str "room", .bool true)])
    let billed := stay 3 (.bool true) (.identifier "ada") (bill (.bool true) (.int 2))
    let free := stay 4 (.int 1) (.identifier "ada") .null
    let gift := stay 5 (.int 1) (.identifier "ada") .null
    (booked.IsOf hotel ∧ kept.IsOf hotel ∧ billed.IsOf hotel ∧ free.IsOf hotel ∧ gift.IsOf hotel) ∧
      (booked.same kept = true ∧ kept.same booked = true ∧ kept.same billed = true ∧ booked.same billed = true) ∧
      booked.filing.same kept.filing = booked.listedAlike kept ∧
      free.same gift = true ∧ free.filing.same gift.filing = true := by
  intro booked kept billed free gift
  have hleaf {v : Value} (hv : v.FitsIn hotel) (hparts : v.parts = []) : v.IsOf hotel :=
    .intro hv (by rw [hparts]; exact fun _ h => nomatch h)
  have hint (n : Int) : (int n).IsOf hotel := hleaf trivial rfl
  have htrue : (bool true).IsOf hotel := hleaf trivial rfl
  have hada : (identifier "ada").IsOf hotel := hleaf trivial rfl
  have hmapping {k l : String} {v w : Value} (hkl : k ≠ l) (hv : v.IsOf hotel) (hw : w.IsOf hotel) :
      (mapping [(str k, v), (str l, w)]).IsOf hotel := by
    refine .intro (List.pairwise_pair.mpr ?_) ?_
    · exact Bool.eq_false_iff.mpr (mt (sameKey_str k l).mp hkl)
    · simp only [parts,List.map_cons,List.map_nil,List.cons_append,List.nil_append,List.forall_mem_cons]
      exact ⟨hleaf trivial rfl,hleaf trivial rfl,hv,hw,fun _ h => nomatch h⟩
  have hstay {n : Nat} {nights guest bill : Value} (hnights : nights.IsOf hotel) (hguest : guest.IsOf hotel)
      (hbill : bill.IsOf hotel) : (stay n nights guest bill).IsOf hotel := by
    refine .intro (rfl : (valueClass "Stay").name = _) ?_
    simp only [stay,parts,List.map_cons,List.map_nil,List.forall_mem_cons]
    exact ⟨hnights,hguest,hbill,fun _ h => nomatch h⟩
  have hbooked : booked.IsOf hotel := hstay (hint 1) hada (hmapping (by decide) (hint 1) (hint 2))
  have hkept : kept.IsOf hotel := hstay htrue (hleaf trivial rfl) (hmapping (by decide) (hint 2) htrue)
  have hbilled : billed.IsOf hotel := hstay htrue hada (hmapping (by decide) htrue (hint 2))
  have hfree : free.IsOf hotel := hstay (hint 1) hada (hleaf trivial rfl)
  have hgift : gift.IsOf hotel := hstay (hint 1) hada (hleaf trivial rfl)
  have hsame : booked.same kept = true := by decide +kernel
  have hsame' : kept.same billed = true := by decide +kernel
  have hsame'' : free.same gift = true := by decide +kernel
  obtain ⟨hswap,htrans,hfiled,_⟩ := equal_filed hbooked hkept hbilled
  obtain ⟨_,_,_,hform⟩ := equal_filed hfree hgift hfree
  exact ⟨⟨hbooked,hkept,hbilled,hfree,hgift⟩,⟨hsame,hswap ▸ hsame,hsame',htrans hsame hsame'⟩,hfiled hsame,hsame'',
    hform _ _ rfl rfl rfl hsame'' (by decide +kernel)⟩

/-- Stays that are equal are filed apart when a number is a truth value in one of them, and journeys whenever they do not
hold the very same stays. -/
theorem filed_apart :
    (stay 1 (.int 1) .null .null).same (stay 2 (.bool true) .null .null) = true ∧
    (stay 1 (.int 1) .null .null).hashable = true ∧ (stay 2 (.bool true) .null .null).hashable = true ∧
    (stay 1 (.int 1) .null .null).filing.same (stay 2 (.bool true) .null .null).filing = false ∧
    (journey 3 (stay 1 .null .null .null) .null).same (journey 4 (stay 2 .null .null .null) .null) = true ∧
    (journey 3 (stay 1 .null .null .null) .null).filing.same (journey 4 (stay 2 .null .null .null) .null).filing =
      false := by
  decide +kernel

end Value

end Trischema
