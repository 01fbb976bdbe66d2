import Trischema.Model.Basic
import Trischema.Proofs.Lists
import Trischema.Proofs.Value.Scalars

/-!
Equality as an equivalence. Of values that belong to one population, equality goes either way and from one to the next,
across all kinds of values and as deep as they go.
-/

namespace Trischema

/-- The classes that values may be of, and the class that each instance was made of. -/
structure Population where
  model : Model
  made : Nat → ClassName

/-- The member that a constant set has under a name. -/
def Population.member? (p : Population) : ConstantSet → String → Option Value
  | .defined cls, name => (p.model.definition? cls).bind (·.members.lookup name)
  | .direction, name => (Direction.ofName? name).map fun d => .member d.member
  | .cardinality, name => (Cardinality.ofName? name).map fun c => .member c.member

/-- A target as a name or a value. -/
def Target.choice : Target Value → Choice (ClassName ⊕ String) Value
  | cls c => .known (.inl c.name)
  | named s => .known (.inr s)
  | resolver v => .other v

namespace Choice

variable {β : Type}

/-- A choice that may be left out. -/
def ofOption : Option (Choice β Value) → Choice (Option β) Value
  | none => known none
  | some (known b) => known (some b)
  | some (other v) => other v

def parts : Choice β Value → List Value
  | other v => [v]
  | known _ => []

end Choice

/-- The base by which an instance is compared. -/
def Object.base? (o : Object Value) : Option Builtin := o.cls.nearest? [.entity, .valueObject, .enumeration]

namespace Value

/-- The values that a value is made of, as far as equality looks at them. -/
def parts : Value → List Value
  | list xs | tuple xs | set xs => xs
  | mapping es => es.map (·.1) ++ es.map (·.2)
  | object o => o.attrs.map (·.2)
  | relationship r =>
    r.target.choice.parts ++ r.direction.parts ++ (Choice.ofOption r.cardinality).parts ++ [r.inverse, r.joinTable]
  | _ => []

/-- Whether no two values are one element of a set, or one key. -/
def Distinct (xs : List Value) : Prop := xs.Pairwise fun x y => x.sameKey y = false

/-- Whether a value fits into a population: members are those of its constant sets, instances are of the class that they
were made of, and sets and dictionaries hold different elements and keys. -/
def FitsIn (p : Population) : Value → Prop
  | set xs => Distinct xs
  | mapping es => Distinct (es.map (·.1))
  | member x => p.member? x.owner x.name = some (member x)
  | object o => o.cls.name = p.made o.identity
  | _ => True

/-- Whether a value belongs to a population, with all that it is made of. -/
inductive IsOf (p : Population) : Value → Prop
  | intro {v : Value} (fits : v.FitsIn p) (parts : ∀ w ∈ v.parts, w.IsOf p) : v.IsOf p

variable {p : Population} {a b c v w : Value}

theorem IsOf.fits (h : v.IsOf p) : v.FitsIn p := by
  cases h
  assumption

theorem IsOf.part (h : v.IsOf p) (hw : w ∈ v.parts) : w.IsOf p := by
  cases h with
  | intro _ hparts => exact hparts w hw

theorem number?_of_word? {s : String} (h : v.word? = some s) : v.number? = none := by
  rcases word?_iff.mp h with htext | rfl
  · exact number?_of_text? htext
  · rfl

/-- What is equal to a text are the texts, members and identifiers of that text. -/
theorem same_word_iff {s : String} (ha : a.word? = some s) : a.same b = true ↔ b.word? = some s := by
  have hnumber := number?_of_word? ha
  have hleaf (htext : a.text? = some s) : a.sameLeaf b = true ↔ b.word? = some s := by
    unfold sameLeaf
    rw [hnumber,htext,word?_iff]
    cases hb : b.number? with
    | some n =>
      refine iff_of_false Bool.false_ne_true fun hword => ?_
      rw [number?_of_word? (word?_iff.mpr hword)] at hb
      cases hb
    | none =>
      cases hb' : b.text? with
      | some t =>
        have hother : b ≠ identifier s := by
          rintro rfl
          cases hb'
        rw [or_iff_left hother,Option.some_inj,eq_comm (a := t)]
        exact beq_iff_eq
      | none =>
        rw [or_iff_right (Option.some_ne_none s).symm]
        cases b with
        | identifier t => exact beq_iff_eq.trans (eq_comm.trans (identifier.injEq t s ▸ Iff.rfl))
        | _ => exact iff_of_false Bool.false_ne_true nofun
  cases a with
  | identifier t =>
    obtain rfl : t = s := Option.some.inj ha
    cases b with
    | identifier u => exact beq_iff_eq.trans (eq_comm.trans (Option.some_inj (a := u)).symm)
    | _ => exact beq_iff_eq
  | list | tuple | set | mapping | object | relationship => cases ha
  | _ => exact hleaf ha

/-- Whether a value is one that nothing but itself is equal to: it is without parts, and neither a number nor a text, nor
a time or a type. -/
def isSingle (v : Value) : Bool :=
  v.number?.isNone && v.word?.isNone &&
    match v with
    | null | bytes _ | date _ | member _ | callable _ => true
    | _ => false

theorem eq_of_same_single (ha : a.IsOf p) (hb : b.IsOf p) (hsingle : a.isSingle = true) (h : a.same b = true) : b = a := by
  obtain ⟨⟨hnumber,hword⟩,hkind⟩ := (Bool.and_eq_true_iff.trans (and_congr_left' Bool.and_eq_true_iff)).mp hsingle
  rw [Option.isNone_iff_eq_none] at hnumber hword
  have htext : a.text? = none := by cases a <;> first | exact hword | rfl
  have hleaf : a.sameLeaf b = true := by cases a <;> first | exact h | cases hkind
  unfold sameLeaf at hleaf
  rw [hnumber,htext] at hleaf
  cases hn : b.number? with
  | some n => rw [hn] at hleaf; cases hleaf
  | none =>
    cases ht : b.text? with
    | some t => rw [hn,ht] at hleaf; cases hleaf
    | none =>
      rw [hn,ht] at hleaf
      dsimp only at hleaf
      cases a with
      | null => cases b <;> first | rfl | cases hleaf
      | bytes bs =>
        cases b with
        | bytes bs' => exact congrArg bytes (eq_of_beq hleaf).symm
        | _ => cases hleaf
      | date d =>
        cases b with
        | date d' => exact congrArg date (eq_of_beq hleaf).symm
        | _ => cases hleaf
      | member x =>
        cases b with
        | member y =>
          simp only [sameAtom,Bool.and_eq_true,beq_iff_eq] at hleaf
          -- a constant set has one member of a name
          have hx := ha.fits
          have hy : p.member? y.owner y.name = some (member y) := hb.fits
          rw [← hleaf.1,← hleaf.2] at hy
          exact Option.some.inj (hy.symm.trans hx)
        | _ => cases hleaf
      | callable c =>
        cases b with
        | callable d => cases c <;> cases d <;> first | rfl | cases hleaf
        | _ => cases c <;> cases hleaf
      | _ => cases hkind

end Value

section Places

variable {a b c : Value}

namespace Value

theorem sameAtom_congr (h : a.sameAtom b = true) (c : Value) : a.sameAtom c = b.sameAtom c := by
  rw [a.sameAtom_comm c,b.sameAtom_comm c]
  cases a with
  | null => cases b <;> first | rfl | cases h
  | bytes bs =>
    cases b with
    | bytes bs' => rw [eq_of_beq h]
    | _ => cases h
  | date d =>
    cases b with
    | date d' => rw [eq_of_beq h]
    | _ => cases h
  | moment m =>
    cases b with
    | moment n =>
      change m.sameInstant n = true at h
      cases c with
      | moment l =>
        simp only [Moment.sameInstant,Moment.comparable,Bool.and_eq_true,beq_iff_eq] at h
        simp only [sameAtom,Moment.sameInstant,Moment.comparable,h.1,h.2]
      | callable f => cases f <;> rfl
      | _ => rfl
    | _ => cases h
  | member m =>
    cases b with
    | member n =>
      obtain ⟨hcls,hname⟩ := Bool.and_eq_true_iff.mp h
      cases c with
      | member l => simp only [sameAtom,eq_of_beq hcls,eq_of_beq hname]
      | callable f => cases f <;> rfl
      | _ => rfl
    | _ => cases h
  | type t =>
    cases b with
    | type u =>
      obtain ⟨hlisting,hclasses⟩ := TypeExpr.alike_iff.mp h
      cases c with
      | type w => simp only [sameAtom,TypeExpr.alike,hlisting,hclasses]
      | callable f => cases f <;> rfl
      | _ => rfl
    | _ => cases h
  | callable f =>
    cases b with
    | callable g => cases f <;> cases g <;> first | rfl | cases h
    | _ => cases f <;> cases h
  | _ => cases h

theorem sameContent_congr (h : a.sameContent b = true) (c : Value) : a.sameContent c = b.sameContent c := by
  revert h
  unfold sameContent
  rcases a.number? with _ | m <;> rcases b.number? with _ | n <;> intro h
  · rcases c.number? with _ | l
    · exact sameAtom_congr h c
    · rfl
  · cases h
  · cases h
  · rcases c.number? with _ | l
    · rfl
    · exact Number.same_congr h l

theorem sameContent_tuple (v : Value) (xs : List Value) : v.sameContent (tuple xs) = false := by
  rw [sameContent_comm]
  unfold sameContent
  cases v.number? <;> rfl

theorem sameContent_object (v : Value) (o : Object Value) : v.sameContent (object o) = false := by
  rw [sameContent_comm]
  unfold sameContent
  cases v.number? <;> rfl

end Value

/-- Whether a value is told apart by its content where others are filed under it: it is no tuple and no instance. -/
def Value.isContent : Value → Bool
  | .tuple _ | .object _ => false
  | _ => true

theorem Value.samePlace_eq (ha : a.isContent = true) (b : Value) : a.samePlace b = a.sameContent b := by
  cases a <;> first | rfl | cases ha

theorem Value.content_comm (ha : a.isContent = true) (b : Value) : a.samePlace b = b.samePlace a := by
  rw [Value.samePlace_eq ha]
  cases b with
  | tuple ys =>
    rw [a.sameContent_tuple]
    cases a <;> first | rfl | cases ha
  | object o =>
    rw [a.sameContent_object]
    cases a <;> first | rfl | cases ha
  | _ => exact a.sameContent_comm _

theorem Value.content_congr (ha : a.isContent = true) (h : a.samePlace b = true) (c : Value) :
    a.samePlace c = b.samePlace c := by
  rw [Value.samePlace_eq ha] at h ⊢
  cases b with
  | tuple ys => cases h.symm.trans (a.sameContent_tuple ys)
  | object o => cases h.symm.trans (a.sameContent_object o)
  | _ => exact Value.sameContent_congr h c

mutual

theorem Value.samePlace_comm (a b : Value) : a.samePlace b = b.samePlace a := by
  cases a with
  | tuple xs =>
    cases b with
    | tuple ys => exact allSamePlace_comm xs ys
    | object o => rfl
    | _ => exact (Value.content_comm (by rfl) _).symm
  | object o =>
    cases b with
    | tuple ys => rfl
    | object o' => exact Bool.beq_comm (a := o.identity)
    | _ => exact (Value.content_comm (by rfl) _).symm
  | _ => exact Value.content_comm (by rfl) b

theorem allSamePlace_comm (xs ys : List Value) : allSamePlace xs ys = allSamePlace ys xs := by
  cases xs with
  | nil => cases ys <;> rfl
  | cons x xs =>
    cases ys with
    | nil => rfl
    | cons y ys => rw [allSamePlace,allSamePlace,Value.samePlace_comm x y,allSamePlace_comm xs ys]

end

mutual

theorem Value.samePlace_congr {a b : Value} (h : a.samePlace b = true) (c : Value) : a.samePlace c = b.samePlace c := by
  cases a with
  | tuple xs =>
    cases b with
    | tuple ys =>
      cases c with
      | tuple zs => exact allSamePlace_congr h zs
      | _ => rfl
    | _ => cases h
  | object o =>
    cases b with
    | object o' =>
      have hidentity : o.identity = o'.identity := eq_of_beq h
      cases c with
      | object o'' => simp only [Value.samePlace,hidentity]
      | _ => rfl
    | _ => cases h
  | _ => exact Value.content_congr (by rfl) h c

theorem allSamePlace_congr {xs ys : List Value} (h : allSamePlace xs ys = true) (zs : List Value) :
    allSamePlace xs zs = allSamePlace ys zs := by
  cases xs with
  | nil =>
    cases ys with
    | nil => rfl
    | cons y ys => cases h
  | cons x xs =>
    cases ys with
    | nil => cases h
    | cons y ys =>
      cases zs with
      | nil => rfl
      | cons z zs =>
        obtain ⟨hfirst,hrest⟩ := Bool.and_eq_true_iff.mp h
        rw [allSamePlace,allSamePlace,Value.samePlace_congr hfirst z,allSamePlace_congr hrest zs]

end

namespace Value

theorem filedAlike_comm (a b : Value) : a.filedAlike b = b.filedAlike a := a.filing.samePlace_comm b.filing

theorem filedAlike_trans (h : a.filedAlike b = true) (h' : b.filedAlike c = true) : a.filedAlike c = true :=
  (samePlace_congr h c.filing).trans h'

end Value

end Places

theorem sameAll_iff {xs ys : List Value} : sameAll xs ys = true ↔ List.Forall₂ (fun x y => x.same y = true) xs ys := by
  induction xs generalizing ys with
  | nil => cases ys <;> simp [sameAll]
  | cons x xs ih => cases ys <;> simp [sameAll,ih]

theorem sameValues_eq (es : List (String × Value)) (ws : List Value) : sameValues es ws = sameAll (es.map (·.2)) ws := by
  induction es generalizing ws with
  | nil => cases ws <;> rfl
  | cons e es ih => cases ws <;> simp [sameValues,sameAll,ih]

theorem allAmong_iff {xs ys : List Value} : allAmong xs ys = true ↔ ∀ x ∈ xs, ∃ y ∈ ys, x.sameKey y = true := by
  induction xs with
  | nil => simp [allAmong]
  | cons x xs ih => simp [allAmong,ih,Value.sameKey]

theorem sameNamed_iff {name : String} {es fs : List (String × Value)} :
    sameNamed name es fs = true ↔ ∃ v w, es.lookup name = some v ∧ fs.lookup name = some w ∧ v.same w = true := by
  induction es with
  | nil => simp [sameNamed]
  | cons e es ih =>
    obtain ⟨k,v⟩ := e
    rw [sameNamed,List.lookup_cons]
    by_cases hk : k = name
    · simp [hk,Option.any_eq_true]
    · have hother : (name == k) = false := beq_false_of_ne (Ne.symm hk)
      rw [if_neg hk,hother]
      exact ih

section Shapes

variable {o o' : Object Value} {r r' : Relationship Value} {b : Value}

/-- How two instances are equal: by their values, by their ids, or by being one. -/
inductive Object.Same (o o' : Object Value) : Prop
  | values (hbase : o.base? = some .valueObject) (hname : o.cls.name = o'.cls.name)
      (hvalues : List.Forall₂ (fun v w => v.same w = true) (o.attrs.map (·.2)) (o'.attrs.map (·.2)))
  | ids {base : Builtin} (hbase : o.base? = some base) (hother : base ≠ .valueObject) (hname : o.cls.name = o'.cls.name)
      {v w : Value} (hv : o.attrs.lookup "id" = some v) (hw : o'.attrs.lookup "id" = some w) (hids : v.same w = true)
  | instances (hbase : o.base? = none) (hidentity : o.identity = o'.identity)

theorem same_values (hbase : o.base? = some .valueObject) : (Value.object o).same (.object o') =
    (o.cls.name == o'.cls.name && sameAll (o.attrs.map (·.2)) (o'.attrs.map (·.2))) := by
  rw [← sameValues_eq]
  unfold Object.base? at hbase
  simp only [Value.same,hbase]

theorem same_ids {base : Builtin} (hbase : o.base? = some base) (hother : base ≠ .valueObject) :
    (Value.object o).same (.object o') = (o.cls.name == o'.cls.name && sameNamed "id" o.attrs o'.attrs) := by
  unfold Object.base? at hbase
  simp only [Value.same,hbase]

theorem same_instances (hbase : o.base? = none) :
    (Value.object o).same (.object o') = (o.identity == o'.identity) := by
  unfold Object.base? at hbase
  simp only [Value.same,hbase]

theorem same_object_iff : (Value.object o).same (.object o') = true ↔ o.Same o' := by
  constructor
  · intro h
    cases hbase : o.base? with
    | none => exact .instances hbase (eq_of_beq (same_instances hbase ▸ h))
    | some base =>
      by_cases hvalue : base = .valueObject
      · subst hvalue
        rw [same_values hbase,Bool.and_eq_true,beq_iff_eq,sameAll_iff] at h
        exact .values hbase h.1 h.2
      · rw [same_ids hbase hvalue,Bool.and_eq_true,beq_iff_eq,sameNamed_iff] at h
        obtain ⟨hname,v,w,hv,hw,hids⟩ := h
        exact .ids hbase hvalue hname hv hw hids
  · rintro (⟨hbase,hname,hvalues⟩ | ⟨hbase,hvalue,hname,hv,hw,hids⟩ | ⟨hbase,hidentity⟩)
    · rw [same_values hbase,Bool.and_eq_true,beq_iff_eq,sameAll_iff]
      exact ⟨hname,hvalues⟩
    · rw [same_ids hbase hvalue,Bool.and_eq_true,beq_iff_eq,sameNamed_iff]
      exact ⟨hname,_,_,hv,hw,hids⟩
    · rw [same_instances hbase]
      exact beq_iff_eq.mpr hidentity

/-- How two choices are equal: by being one, or by their values. -/
inductive Choice.Same {β : Type} : Choice β Value → Choice β Value → Prop
  | known (k : β) : Same (.known k) (.known k)
  | other {v w : Value} (h : v.same w = true) : Same (.other v) (.other w)

namespace Choice

variable {β : Type} {k k' : β} {v w : Value}

@[simp] theorem same_known : (known k : Choice β Value).Same (known k') ↔ k = k' :=
  ⟨fun h => by cases h; rfl,fun h => h ▸ .known k⟩

@[simp] theorem same_other : (other v : Choice β Value).Same (other w) ↔ v.same w = true :=
  ⟨fun h => by cases h; assumption,.other⟩

@[simp] theorem not_same_other : ¬(known k : Choice β Value).Same (other w) := nofun

@[simp] theorem not_same_known : ¬(other v : Choice β Value).Same (known k) := nofun

end Choice

theorem sameTarget_iff {t t' : Target Value} : sameTarget t t' = true ↔ t.choice.Same t'.choice := by
  cases t <;> cases t' <;> simp [sameTarget,Target.choice]

theorem sameDirection_iff {d d' : Choice Direction Value} : sameDirection d d' = true ↔ d.Same d' := by
  cases d <;> cases d' <;> simp [sameDirection]

theorem sameCardinality_iff {c c' : Option (Choice Cardinality Value)} :
    sameCardinality c c' = true ↔ (Choice.ofOption c).Same (Choice.ofOption c') := by
  rcases c with _ | ⟨_ | _⟩ <;> rcases c' with _ | ⟨_ | _⟩ <;> simp [sameCardinality,Choice.ofOption]

/-- How two relationships are equal: field by field. -/
structure Relationship.Same (r r' : Relationship Value) : Prop where
  edgeType : r.edgeType = r'.edgeType
  target : r.target.choice.Same r'.target.choice
  direction : r.direction.Same r'.direction
  cardinality : (Choice.ofOption r.cardinality).Same (Choice.ofOption r'.cardinality)
  owner : r.owner = r'.owner
  inverse : r.inverse.same r'.inverse = true
  joinColumns : r.joinColumns = r'.joinColumns
  joinTable : r.joinTable.same r'.joinTable = true
  cascade : r.cascade = r'.cascade
  eager : r.eager = r'.eager
  edgeProperties : r.edgeProperties = r'.edgeProperties

theorem same_relationship_iff : (Value.relationship r).same (.relationship r') = true ↔ r.Same r' := by
  simp only [Value.same,Bool.and_eq_true,beq_iff_eq,sameTarget_iff,sameDirection_iff,sameCardinality_iff]
  constructor
  · rintro ⟨⟨⟨⟨⟨⟨⟨⟨⟨⟨h₁,h₂⟩,h₃⟩,h₄⟩,h₅⟩,h₆⟩,h₇⟩,h₈⟩,h₉⟩,h₁₀⟩,h₁₁⟩
    exact ⟨h₁,h₂,h₃,h₄,h₅,h₆,h₇,h₈,h₉,h₁₀,h₁₁⟩
  · intro h
    exact ⟨⟨⟨⟨⟨⟨⟨⟨⟨⟨h.edgeType,h.target⟩,h.direction⟩,h.cardinality⟩,h.owner⟩,h.inverse⟩,h.joinColumns⟩,h.joinTable⟩,
      h.cascade⟩,h.eager⟩,h.edgeProperties⟩

theorem same_list_iff {xs : List Value} : (Value.list xs).same b = true ↔
    ∃ ys, b = .list ys ∧ List.Forall₂ (fun x y => x.same y = true) xs ys := by
  cases b with
  | list ys => exact sameAll_iff.trans ⟨fun h => ⟨ys,rfl,h⟩,fun ⟨_,heq,h⟩ => by cases heq; exact h⟩
  | _ => exact iff_of_false Bool.false_ne_true nofun

theorem same_tuple_iff {xs : List Value} : (Value.tuple xs).same b = true ↔
    ∃ ys, b = .tuple ys ∧ List.Forall₂ (fun x y => x.same y = true) xs ys := by
  cases b with
  | tuple ys => exact sameAll_iff.trans ⟨fun h => ⟨ys,rfl,h⟩,fun ⟨_,heq,h⟩ => by cases heq; exact h⟩
  | _ => exact iff_of_false Bool.false_ne_true nofun

theorem same_set_iff {xs : List Value} : (Value.set xs).same b = true ↔
    ∃ ys, b = .set ys ∧ xs.length = ys.length ∧ ∀ x ∈ xs, ∃ y ∈ ys, x.sameKey y = true := by
  cases b with
  | set ys =>
    simp only [Value.same,Bool.and_eq_true,beq_iff_eq,allAmong_iff,Value.set.injEq,exists_eq_left']
  | _ => exact iff_of_false Bool.false_ne_true nofun

theorem same_mapping_iff {es : List (Value × Value)} : (Value.mapping es).same b = true ↔
    ∃ fs, b = .mapping fs ∧ es.length = fs.length ∧
      ∀ e ∈ es, ∃ f ∈ fs, e.1.sameKey f.1 = true ∧ e.2.same f.2 = true := by
  cases b with
  | mapping fs =>
    simp only [Value.same,Bool.and_eq_true,beq_iff_eq,entriesAmong_iff,Value.mapping.injEq,exists_eq_left']
  | _ => exact iff_of_false Bool.false_ne_true nofun

theorem same_type_iff {t : TypeExpr Value} : (Value.type t).same b = true ↔ ∃ u, b = .type u ∧ t.alike u = true := by
  cases b with
  | type u => exact ⟨fun h => ⟨u,rfl,h⟩,fun ⟨_,heq,h⟩ => by cases heq; exact h⟩
  | member x =>
    obtain ⟨cls,mixin,name,value⟩ := x
    cases mixin <;> cases value <;> exact iff_of_false Bool.false_ne_true nofun
  | _ => exact iff_of_false Bool.false_ne_true nofun

theorem eq_object_of_same (h : (Value.object o).same b = true) : ∃ o', b = .object o' := by
  cases b with
  | object o' => exact ⟨o',rfl⟩
  | _ => cases h

theorem eq_relationship_of_same (h : (Value.relationship r).same b = true) : ∃ r', b = .relationship r' := by
  cases b with
  | relationship r' => exact ⟨r',rfl⟩
  | _ => cases h

end Shapes

/-- The kinds of values, by how they are compared. -/
@[elab_as_elim]
theorem Value.kinds {motive : Value → Prop} (number : ∀ v n, v.number? = some n → motive v)
    (word : ∀ v s, v.word? = some s → motive v) (single : ∀ v, v.isSingle = true → motive v)
    (moment : ∀ m, motive (.moment m)) (type : ∀ t, motive (.type t)) (list : ∀ xs, motive (.list xs))
    (tuple : ∀ xs, motive (.tuple xs)) (set : ∀ xs, motive (.set xs)) (mapping : ∀ es, motive (.mapping es))
    (object : ∀ o, motive (.object o)) (relationship : ∀ r, motive (.relationship r)) (v : Value) : motive v := by
  cases v with
  | bool | int | float | complex => exact number _ _ rfl
  | str | identifier => exact word _ _ rfl
  | null | bytes | date | callable => exact single _ rfl
  | moment m => exact moment m
  | type t => exact type t
  | list xs => exact list xs
  | tuple xs => exact tuple xs
  | set xs => exact set xs
  | mapping es => exact mapping es
  | object o => exact object o
  | relationship r => exact relationship r
  | member x =>
    cases hn : (Value.member x).number? with
    | some n => exact number _ n hn
    | none =>
      cases hw : (Value.member x).word? with
      | some s => exact word _ s hw
      | none => exact single _ (by rw [isSingle,hn,hw]; rfl)

section Transitivity

variable {p : Population} {o o' o'' : Object Value} {r r' r'' : Relationship Value}

theorem Object.base?_congr (hname : o.cls.name = o'.cls.name) : o.base? = o'.base? := by
  rw [base?,base?,Class.nearest?,Class.nearest?,Class.lineage,Class.lineage,hname]

/-- Whether equality goes on from a value, along values of a population. -/
def Value.GoesOn (p : Population) (a : Value) : Prop :=
  ∀ b c : Value, b.IsOf p → c.IsOf p → a.same b = true → b.same c = true → a.same c = true

theorem Value.GoesOn.key {a b c : Value} (ha : a.GoesOn p) (hb : b.IsOf p) (hc : c.IsOf p) (hab : a.sameKey b = true)
    (hbc : b.sameKey c = true) : a.sameKey c = true := by
  rw [sameKey,Bool.and_eq_true] at hab hbc ⊢
  exact ⟨ha b c hb hc hab.1 hbc.1,filedAlike_trans hab.2 hbc.2⟩

theorem attribute_mem_parts {v : Value} {name : String} (hv : o.attrs.lookup name = some v) :
    v ∈ (Value.object o).parts := List.mem_map.mpr ⟨_,mem_of_lookup hv,rfl⟩

theorem forall₂_same_trans {xs ys zs : List Value} (hxs : ∀ x ∈ xs, x.GoesOn p) (hys : ∀ y ∈ ys, y.IsOf p)
    (hzs : ∀ z ∈ zs, z.IsOf p) (h : List.Forall₂ (fun x y => x.same y = true) xs ys)
    (h' : List.Forall₂ (fun x y => x.same y = true) ys zs) : List.Forall₂ (fun x y => x.same y = true) xs zs := by
  induction h generalizing zs with
  | nil => exact h'
  | @cons x y xs ys hxy _ ih =>
    obtain ⟨z,zs,hyz,hrest,rfl⟩ := List.forall₂_cons_left_iff.mp h'
    rw [List.forall_mem_cons] at hxs hys hzs
    exact .cons (hxs.1 y z hys.1 hzs.1 hxy hyz) (ih hxs.2 hys.2 hzs.2 hrest)

theorem Object.Same.trans (ho : (Value.object o).IsOf p) (ho' : (Value.object o').IsOf p) (ho'' : (Value.object o'').IsOf p)
    (ih : ∀ v ∈ (Value.object o).parts, v.GoesOn p) (h : o.Same o') (h' : o'.Same o'') : o.Same o'' := by
  have hname : o.cls.name = o'.cls.name := by
    cases h with
    | values _ hname | ids _ _ hname => exact hname
    | instances _ hidentity => rw [ho.fits,ho'.fits,hidentity]
  have hbase := base?_congr hname
  cases h with
  | values hvalue _ hvalues =>
    cases h' with
    | values _ hname' hvalues' =>
      exact .values hvalue (hname.trans hname')
        (forall₂_same_trans ih (fun _ => ho'.part) (fun _ => ho''.part) hvalues hvalues')
    | ids hbase' hother => exact absurd (Option.some.inj (hbase'.symm.trans (hbase.symm.trans hvalue))) hother
    | instances hnone => cases hvalue.symm.trans (hbase.trans hnone)
  | ids hsome hother _ hv hw hids =>
    cases h' with
    | values hvalue => exact absurd (Option.some.inj (hsome.symm.trans (hbase.trans hvalue))) hother
    | ids _ _ hname' hv' hw' hids' =>
      cases hw.symm.trans hv'
      exact .ids hsome hother (hname.trans hname') hv hw'
        (ih _ (attribute_mem_parts hv) _ _ (ho'.part (attribute_mem_parts hw)) (ho''.part (attribute_mem_parts hw'))
          hids hids')
    | instances hnone => cases hsome.symm.trans (hbase.trans hnone)
  | instances hnone hidentity =>
    cases h' with
    | values hvalue => cases hnone.symm.trans (hbase.trans hvalue)
    | ids hsome => cases hnone.symm.trans (hbase.trans hsome)
    | instances _ hidentity' => exact .instances hnone (hidentity.trans hidentity')

theorem Choice.Same.trans {β : Type} {k k' k'' : Choice β Value} (ih : ∀ v ∈ k.parts, v.GoesOn p)
    (hk' : ∀ v ∈ k'.parts, v.IsOf p) (hk'' : ∀ v ∈ k''.parts, v.IsOf p) (h : k.Same k') (h' : k'.Same k'') :
    k.Same k'' := by
  cases h with
  | known => exact h'
  | other h =>
    cases h' with
    | other h' =>
      exact .other (ih _ (List.mem_singleton_self _) _ _ (hk' _ (List.mem_singleton_self _))
        (hk'' _ (List.mem_singleton_self _)) h h')

theorem Relationship.Same.trans (hr' : (Value.relationship r').IsOf p) (hr'' : (Value.relationship r'').IsOf p)
    (ih : ∀ v ∈ (Value.relationship r).parts, v.GoesOn p) (h : r.Same r') (h' : r'.Same r'') : r.Same r'' where
  edgeType := h.edgeType.trans h'.edgeType
  target := h.target.trans (fun v hv => ih v (by simp [Value.parts,hv])) (fun v hv => hr'.part (by simp [Value.parts,hv]))
    (fun v hv => hr''.part (by simp [Value.parts,hv])) h'.target
  direction := h.direction.trans (fun v hv => ih v (by simp [Value.parts,hv]))
    (fun v hv => hr'.part (by simp [Value.parts,hv])) (fun v hv => hr''.part (by simp [Value.parts,hv])) h'.direction
  cardinality := h.cardinality.trans (fun v hv => ih v (by simp [Value.parts,hv]))
    (fun v hv => hr'.part (by simp [Value.parts,hv])) (fun v hv => hr''.part (by simp [Value.parts,hv])) h'.cardinality
  owner := h.owner.trans h'.owner
  inverse := ih _ (by simp [Value.parts]) _ _ (hr'.part (by simp [Value.parts])) (hr''.part (by simp [Value.parts]))
    h.inverse h'.inverse
  joinColumns := h.joinColumns.trans h'.joinColumns
  joinTable := ih _ (by simp [Value.parts]) _ _ (hr'.part (by simp [Value.parts])) (hr''.part (by simp [Value.parts]))
    h.joinTable h'.joinTable
  cascade := h.cascade.trans h'.cascade
  eager := h.eager.trans h'.eager
  edgeProperties := h.edgeProperties.trans h'.edgeProperties

variable {a b c : Value}

theorem key_mem_parts {es : List (Value × Value)} {e : Value × Value} (he : e ∈ es) : e.1 ∈ (Value.mapping es).parts :=
  List.mem_append_left _ (List.mem_map_of_mem he)

theorem value_mem_parts {es : List (Value × Value)} {e : Value × Value} (he : e ∈ es) : e.2 ∈ (Value.mapping es).parts :=
  List.mem_append_right _ (List.mem_map_of_mem he)

namespace Value

theorem IsOf.goesOn (ha : a.IsOf p) : a.GoesOn p := by
  induction ha with
  | @intro a fits hparts ih =>
    intro b c hb hc hab hbc
    cases a using Value.kinds with
    | number v l hv =>
      rw [number_same hv] at hab ⊢
      obtain ⟨m,hm,hlm⟩ := (Option.any_eq_true _ _).mp hab
      rw [number_same hm] at hbc
      obtain ⟨n,hn,hmn⟩ := (Option.any_eq_true _ _).mp hbc
      exact (Option.any_eq_true _ _).mpr ⟨n,hn,(Number.same_congr hlm n).trans hmn⟩
    | word v s hv =>
      rw [same_word_iff hv] at hab ⊢
      exact (same_word_iff hab).mp hbc
    | single v hv =>
      obtain rfl := eq_of_same_single (.intro fits hparts) hb hv hab
      exact hbc
    | moment l =>
      obtain ⟨m,rfl,hlm⟩ := moment_same_iff.mp hab
      obtain ⟨n,rfl,hmn⟩ := moment_same_iff.mp hbc
      refine moment_same_iff.mpr ⟨n,rfl,?_⟩
      simp only [Moment.sameInstant,Moment.comparable,Bool.and_eq_true,beq_iff_eq] at hlm hmn ⊢
      exact ⟨hlm.1.trans hmn.1,hlm.2.trans hmn.2⟩
    | type t =>
      obtain ⟨u,rfl,htu⟩ := same_type_iff.mp hab
      obtain ⟨w,rfl,huw⟩ := same_type_iff.mp hbc
      exact same_type_iff.mpr ⟨w,rfl,TypeExpr.alike_trans htu huw⟩
    | list xs =>
      obtain ⟨ys,rfl,hxy⟩ := same_list_iff.mp hab
      obtain ⟨zs,rfl,hyz⟩ := same_list_iff.mp hbc
      exact same_list_iff.mpr ⟨zs,rfl,forall₂_same_trans ih (fun _ => hb.part) (fun _ => hc.part) hxy hyz⟩
    | tuple xs =>
      obtain ⟨ys,rfl,hxy⟩ := same_tuple_iff.mp hab
      obtain ⟨zs,rfl,hyz⟩ := same_tuple_iff.mp hbc
      exact same_tuple_iff.mpr ⟨zs,rfl,forall₂_same_trans ih (fun _ => hb.part) (fun _ => hc.part) hxy hyz⟩
    | set xs =>
      obtain ⟨ys,rfl,hlength,hxy⟩ := same_set_iff.mp hab
      obtain ⟨zs,rfl,hlength',hyz⟩ := same_set_iff.mp hbc
      refine same_set_iff.mpr ⟨zs,rfl,hlength.trans hlength',fun x hx => ?_⟩
      obtain ⟨y,hy,hxy⟩ := hxy x hx
      obtain ⟨z,hz,hyz⟩ := hyz y hy
      exact ⟨z,hz,(ih x hx).key (hb.part hy) (hc.part hz) hxy hyz⟩
    | mapping es =>
      obtain ⟨fs,rfl,hlength,hef⟩ := same_mapping_iff.mp hab
      obtain ⟨gs,rfl,hlength',hfg⟩ := same_mapping_iff.mp hbc
      refine same_mapping_iff.mpr ⟨gs,rfl,hlength.trans hlength',fun e he => ?_⟩
      obtain ⟨f,hf,hkey,hvalue⟩ := hef e he
      obtain ⟨g,hg,hkey',hvalue'⟩ := hfg f hf
      exact ⟨g,hg,(ih _ (key_mem_parts he)).key (hb.part (key_mem_parts hf)) (hc.part (key_mem_parts hg)) hkey hkey',
        ih _ (value_mem_parts he) _ _ (hb.part (value_mem_parts hf)) (hc.part (value_mem_parts hg)) hvalue hvalue'⟩
    | object o =>
      obtain ⟨o',rfl⟩ := eq_object_of_same hab
      obtain ⟨o'',rfl⟩ := eq_object_of_same hbc
      rw [same_object_iff] at hab hbc ⊢
      exact hab.trans (.intro fits hparts) hb hc ih hbc
    | relationship r =>
      obtain ⟨r',rfl⟩ := eq_relationship_of_same hab
      obtain ⟨r'',rfl⟩ := eq_relationship_of_same hbc
      rw [same_relationship_iff] at hab hbc ⊢
      exact hab.trans hb hc ih hbc

/-- Of three values of a population, the first is equal to the last if both are equal to the one between them. -/
theorem same_trans (ha : a.IsOf p) (hb : b.IsOf p) (hc : c.IsOf p) (hab : a.same b = true) (hbc : b.same c = true) :
    a.same c = true :=
  ha.goesOn b c hb hc hab hbc

end Value

end Transitivity

section Symmetry

variable {p : Population} {a b : Value} {o o' : Object Value} {r r' : Relationship Value}

/-- Whether equality goes back to a value, from values of a population. -/
def Value.GoesBack (p : Population) (a : Value) : Prop := ∀ b : Value, b.IsOf p → a.same b = true → b.same a = true

theorem Value.GoesBack.key (ha : a.GoesBack p) (hb : b.IsOf p) (h : a.sameKey b = true) : b.sameKey a = true := by
  rw [sameKey,Bool.and_eq_true] at h ⊢
  exact ⟨ha b hb h.1,(b.filedAlike_comm a).trans h.2⟩

theorem forall₂_same_symm {xs ys : List Value} (hxs : ∀ x ∈ xs, x.GoesBack p) (hys : ∀ y ∈ ys, y.IsOf p)
    (h : List.Forall₂ (fun x y => x.same y = true) xs ys) : List.Forall₂ (fun x y => x.same y = true) ys xs := by
  induction h with
  | nil => exact .nil
  | cons hxy _ ih =>
    rw [List.forall_mem_cons] at hxs hys
    exact .cons (hxs.1 _ hys.1 hxy) (ih hxs.2 hys.2)

theorem Object.Same.symm (ho : (Value.object o).IsOf p) (ho' : (Value.object o').IsOf p)
    (ih : ∀ v ∈ (Value.object o).parts, v.GoesBack p) (h : o.Same o') : o'.Same o := by
  cases h with
  | values hvalue hname hvalues =>
    exact .values ((base?_congr hname).symm.trans hvalue) hname.symm
      (forall₂_same_symm ih (fun _ => ho'.part) hvalues)
  | ids hsome hother hname hv hw hids =>
    exact .ids ((base?_congr hname).symm.trans hsome) hother hname.symm hw hv
      (ih _ (attribute_mem_parts hv) _ (ho'.part (attribute_mem_parts hw)) hids)
  | instances hnone hidentity =>
    have hname : o.cls.name = o'.cls.name := by rw [ho.fits,ho'.fits,hidentity]
    exact .instances ((base?_congr hname).symm.trans hnone) hidentity.symm

theorem Choice.Same.symm {β : Type} {k k' : Choice β Value} (ih : ∀ v ∈ k.parts, v.GoesBack p)
    (hk' : ∀ v ∈ k'.parts, v.IsOf p) (h : k.Same k') : k'.Same k := by
  cases h with
  | known k => exact .known k
  | other h => exact .other (ih _ (List.mem_singleton_self _) _ (hk' _ (List.mem_singleton_self _)) h)

theorem Relationship.Same.symm (hr' : (Value.relationship r').IsOf p)
    (ih : ∀ v ∈ (Value.relationship r).parts, v.GoesBack p) (h : r.Same r') : r'.Same r where
  edgeType := h.edgeType.symm
  target := h.target.symm (fun v hv => ih v (by simp [Value.parts,hv])) (fun v hv => hr'.part (by simp [Value.parts,hv]))
  direction := h.direction.symm (fun v hv => ih v (by simp [Value.parts,hv]))
    (fun v hv => hr'.part (by simp [Value.parts,hv]))
  cardinality := h.cardinality.symm (fun v hv => ih v (by simp [Value.parts,hv]))
    (fun v hv => hr'.part (by simp [Value.parts,hv]))
  owner := h.owner.symm
  inverse := ih _ (by simp [Value.parts]) _ (hr'.part (by simp [Value.parts])) h.inverse
  joinColumns := h.joinColumns.symm
  joinTable := ih _ (by simp [Value.parts]) _ (hr'.part (by simp [Value.parts])) h.joinTable
  cascade := h.cascade.symm
  eager := h.eager.symm
  edgeProperties := h.edgeProperties.symm

namespace Value

theorem IsOf.goesBack (ha : a.IsOf p) : a.GoesBack p := by
  induction ha with
  | @intro a fits hparts ih =>
    have ha : a.IsOf p := .intro fits hparts
    intro b hb hab
    cases a using Value.kinds with
    | number v m hv =>
      rw [number_same hv] at hab
      obtain ⟨n,hn,hmn⟩ := (Option.any_eq_true _ _).mp hab
      rw [number_same hn,hv]
      exact (Number.same_comm n m).trans hmn
    | word v s hv =>
      rw [same_word_iff hv] at hab
      exact (same_word_iff hab).mpr hv
    | single v hv =>
      obtain rfl := eq_of_same_single ha hb hv hab
      exact hab
    | moment m =>
      obtain ⟨n,rfl,hmn⟩ := moment_same_iff.mp hab
      exact moment_same_iff.mpr ⟨m,rfl,(n.sameInstant_comm m).trans hmn⟩
    | type t =>
      obtain ⟨u,rfl,htu⟩ := same_type_iff.mp hab
      exact same_type_iff.mpr ⟨t,rfl,(u.alike_comm t).trans htu⟩
    | list xs =>
      obtain ⟨ys,rfl,hxy⟩ := same_list_iff.mp hab
      exact same_list_iff.mpr ⟨xs,rfl,forall₂_same_symm ih (fun _ => hb.part) hxy⟩
    | tuple xs =>
      obtain ⟨ys,rfl,hxy⟩ := same_tuple_iff.mp hab
      exact same_tuple_iff.mpr ⟨xs,rfl,forall₂_same_symm ih (fun _ => hb.part) hxy⟩
    | set xs =>
      obtain ⟨ys,rfl,hlength,hxy⟩ := same_set_iff.mp hab
      -- two elements that are equal to a third are equal, and a set has no two equal ones
      have hdistinct : xs.Pairwise fun x x' => ∀ y ∈ ys, x.sameKey y = true → ¬x'.sameKey y = true := by
        refine (show Distinct xs from fits).imp_of_mem fun {x x'} hx hx' hno y hy hxy hx'y => ?_
        have hback := (ih x' hx').key (hb.part hy) hx'y
        rw [(hparts x hx).goesOn.key (hb.part hy) (hparts x' hx') hxy hback] at hno
        cases hno
      refine same_set_iff.mpr ⟨xs,rfl,hlength.symm,fun y hy => ?_⟩
      obtain ⟨x,hx,hxy⟩ := exists_matched hlength.ge hxy hdistinct y hy
      exact ⟨x,hx,(ih x hx).key (hb.part hy) hxy⟩
    | mapping es =>
      obtain ⟨fs,rfl,hlength,hef⟩ := same_mapping_iff.mp hab
      have hdistinct : es.Pairwise fun e e' => ∀ f ∈ fs, e.1.sameKey f.1 = true ∧ e.2.same f.2 = true →
          ¬(e'.1.sameKey f.1 = true ∧ e'.2.same f.2 = true) := by
        refine (List.pairwise_map.mp (show Distinct (es.map (·.1)) from fits)).imp_of_mem
          fun {e e'} he he' hno f hf hef he'f => ?_
        have hback := (ih _ (key_mem_parts he')).key (hb.part (key_mem_parts hf)) he'f.1
        rw [(hparts _ (key_mem_parts he)).goesOn.key (hb.part (key_mem_parts hf)) (hparts _ (key_mem_parts he')) hef.1
          hback] at hno
        cases hno
      refine same_mapping_iff.mpr ⟨es,rfl,hlength.symm,fun f hf => ?_⟩
      obtain ⟨e,he,hkey,hvalue⟩ := exists_matched hlength.ge hef hdistinct f hf
      exact ⟨e,he,(ih _ (key_mem_parts he)).key (hb.part (key_mem_parts hf)) hkey,
        ih _ (value_mem_parts he) _ (hb.part (value_mem_parts hf)) hvalue⟩
    | object o =>
      obtain ⟨o',rfl⟩ := eq_object_of_same hab
      rw [same_object_iff] at hab ⊢
      exact hab.symm ha hb ih
    | relationship r =>
      obtain ⟨r',rfl⟩ := eq_relationship_of_same hab
      rw [same_relationship_iff] at hab ⊢
      exact hab.symm hb ih

/-- It makes no difference which of two values of a population is compared with the other. -/
theorem same_swap (ha : a.IsOf p) (hb : b.IsOf p) : a.same b = b.same a := by
  rw [Bool.eq_iff_iff]
  exact ⟨ha.goesBack b hb,hb.goesBack a ha⟩

end Value

end Symmetry

end Trischema
