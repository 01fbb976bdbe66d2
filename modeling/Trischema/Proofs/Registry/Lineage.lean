import Trischema.Proofs.Registry.Tables

/-!
What a lineage leaves of options. Each part of the options under a key is the one that the nearest class gives, a
class giving what it declares before what it has by being a domain base; keys stand in the order in which the lineage
introduces them, from base to derived.
-/

namespace Trischema

namespace Options

variable {α : Type} {part : Options → Option α}

/-- The parts that options consist of. -/
inductive IsPart : {α : Type} → (Options → Option α) → Prop
  | type : IsPart Options.type
  | unique : IsPart Options.unique
  | optional : IsPart Options.optional
  | isIdentifier : IsPart Options.isIdentifier
  | enum : IsPart Options.enum
  | default : IsPart Options.default
  | relationship : IsPart Options.relationship

theorem IsPart.empty (h : IsPart part) : part {} = none := by
  cases h <;> rfl

theorem IsPart.overlay (h : IsPart part) (later earlier : Options) :
    part (later.overlay earlier) = (part later <|> part earlier) := by
  cases h <;> rfl

theorem IsPart.declaredOver (h : IsPart part) (later earlier : Options) :
    part (later.declaredOver earlier) = (part later <|> part earlier) := by
  cases h <;> rfl

/-- The options whose every part is the first that is given. -/
def firstOf (os : List Options) : Options where
  type := os.findSome? (·.type)
  unique := os.findSome? (·.unique)
  optional := os.findSome? (·.optional)
  isIdentifier := os.findSome? (·.isIdentifier)
  enum := os.findSome? (·.enum)
  default := os.findSome? (·.default)
  relationship := os.findSome? (·.relationship)

theorem IsPart.firstOf (h : IsPart part) (os : List Options) : part (firstOf os) = os.findSome? part := by
  cases h <;> rfl

/-- What is declared over what is injected over what there is already. -/
def layered (declared injected old : Option Options) : Option Options :=
  let below := injected.elim old fun o => some (o.overlay (old.getD {}))
  declared.elim below fun o => some (o.declaredOver (below.getD {}))

section Layered

variable {declared injected old : Option Options}

theorem layered_isSome : (layered declared injected old).isSome = true ↔
    declared.isSome = true ∨ injected.isSome = true ∨ old.isSome = true := by
  cases declared <;> cases injected <;> simp [layered]

theorem IsPart.layered (h : IsPart part) :
    (layered declared injected old).bind part = (declared.bind part <|> injected.bind part <|> old.bind part) := by
  have hold : part (old.getD {}) = old.bind part := by
    cases old with
    | none => exact h.empty
    | some o => rfl
  cases declared with
  | none =>
    cases injected with
    | none => simp [Options.layered]
    | some i => simp [Options.layered,h.overlay,hold]
  | some o =>
    cases injected with
    | none => simp [Options.layered,h.declaredOver,hold]
    | some i => simp [Options.layered,h.declaredOver,h.overlay,hold]

/-- What is declared is not synthetic, whatever it is declared over. -/
theorem layered_synthetic : (layered declared injected old).any (·.synthetic) =
    (declared.isNone && (injected.any (·.synthetic) || old.any (·.synthetic))) := by
  cases declared <;> cases injected <;> cases old <;> simp [layered,Options.overlay,Options.declaredOver]

end Layered

end Options

namespace OptionTable

variable {combine : Options → Options → Options} {table : OptionTable}

theorem lookup_upsert (key k : String) (o : Options) : (table.upsert combine key o).lookup k =
    if k = key then some (combine o ((table.lookup key).getD {})) else table.lookup k := by
  induction table with
  | nil =>
    by_cases h : k = key
    · simp [upsert,h]
    · simp [upsert,h,List.lookup_cons,beq_eq_false_iff_ne.mpr h]
  | cons entry rest ih =>
    obtain ⟨first,old⟩ := entry
    rw [upsert]
    by_cases hfirst : first = key
    · subst hfirst
      by_cases h : k = first
      · simp [h]
      · simp [h,List.lookup_cons,beq_eq_false_iff_ne.mpr h]
    · rw [if_neg hfirst,List.lookup_cons,ih]
      by_cases h : k = key
      · subst h
        simp [List.lookup_cons,beq_eq_false_iff_ne.mpr (Ne.symm hfirst)]
      · simp [h,List.lookup_cons]

/-- Adding a table with distinct keys to another one combines what is under the keys of both. -/
theorem lookup_foldl_upsert {entries : OptionTable} (h : (entries.map (·.1)).Nodup) (key : String) :
    (entries.foldl (fun t (k, o) => t.upsert combine k o) table).lookup key =
      (entries.lookup key).elim (table.lookup key) fun o => some (combine o ((table.lookup key).getD {})) := by
  induction entries generalizing table with
  | nil => rfl
  | cons entry rest ih =>
    obtain ⟨k,o⟩ := entry
    obtain ⟨hk,hrest⟩ := List.nodup_cons.mp h
    rw [List.foldl_cons,ih hrest,lookup_upsert]
    by_cases heq : key = k
    · subst heq
      have hnone : rest.lookup key = none := by
        rw [List.lookup_eq_none_iff]
        intro entry hentry
        have hne : key ≠ entry.1 := fun heq => hk (List.mem_map.mpr ⟨entry,hentry,heq.symm⟩)
        exact bne_iff_ne.mpr hne
      simp [hnone]
    · simp [heq,List.lookup_cons,beq_eq_false_iff_ne.mpr heq]

theorem foldl_upsert_keys (entries : OptionTable) (h : (table.map (·.1)).Nodup) :
    (entries.foldl (fun t (k, o) => t.upsert combine k o) table).map (·.1) =
      (table.map (·.1) ++ entries.map (·.1)).eraseDups := by
  induction entries generalizing table with
  | nil => rw [List.map_nil,List.append_nil,eraseDups_of_nodup h,List.foldl_nil]
  | cons entry rest ih =>
    obtain ⟨k,o⟩ := entry
    rw [List.foldl_cons,ih (upsert_keys_nodup combine k o h),upsert_keys,List.map_cons,
      List.append_cons (table.map (·.1))]
    refine eraseDups_append_congr ?_
    split
    · rename_i hk
      rw [List.append_nil,eraseDups_append_known (List.cons_subset.mpr ⟨hk,List.nil_subset _⟩)]
    · rfl

end OptionTable

namespace Registry

variable {r : Registry} {c : Class Value} {key : String} {name : ClassName} {lineage : List ClassName}

/-- What is heard of the declarations of a class; nothing that is declared for `object` is heard. -/
def heard (r : Registry) (name : ClassName) : OptionTable := if name = .builtin .object then [] else r.declared name

/-- What a class gives for a key: what it declares, over what it has by being a domain base. -/
def supplied? (r : Registry) (key : String) (name : ClassName) : Option Options :=
  Options.layered ((r.heard name).lookup key) (name.domainProperties.lookup key) none

/-- The merged options of a key: each part is the one that the nearest class gives. -/
def inherited (r : Registry) (lineage : List ClassName) (key : String) : Options :=
  Options.firstOf (lineage.filterMap (r.supplied? key))

/-- Whether some class of a lineage gives something for a key. -/
def IsSupplied (r : Registry) (lineage : List ClassName) (key : String) : Prop :=
  ∃ name ∈ lineage, (r.supplied? key name).isSome = true

/-- Whether a lineage reaches a class of one kind by way of classes of another kind, which the class reached is also
of. -/
def Reaches (kind way : ClassName → Prop) (lineage : List ClassName) : Prop :=
  ∃ before base after, lineage = before ++ base :: after ∧ kind base ∧ ∀ name ∈ before ++ [base], way name

/-- Whether a key is synthetic: a class gives it so by being a domain base, and no class up to it declares the key. -/
def IsSynthetic (r : Registry) (lineage : List ClassName) (key : String) : Prop :=
  Reaches (fun base => (base.domainProperties.lookup key).any (·.synthetic) = true)
    (fun name => (r.heard name).lookup key = none) lineage

/-- The keys that a class gives, in its order. -/
def keysFrom (r : Registry) (name : ClassName) : List String :=
  name.domainProperties.map (·.1) ++ (r.heard name).map (·.1)

/-- The keys of a lineage in the order in which they are introduced, from base to derived. -/
def introduced (r : Registry) (lineage : List ClassName) : List String :=
  (lineage.reverse.flatMap r.keysFrom).eraseDups

/-- The options that a lineage leaves. -/
def along (r : Registry) (lineage : List ClassName) : OptionTable :=
  lineage.foldr (fun name table => r.contribute table name) []

theorem folded_eq (r : Registry) (c : Class Value) : r.folded c = r.along c.lineage := List.foldl_reverse

theorem contribute_eq (r : Registry) (table : OptionTable) (name : ClassName) :
    r.contribute table name = (r.heard name).foldl (fun t (k, o) => t.upsert .declaredOver k o)
      (name.domainProperties.foldl (fun t (k, o) => t.upsert .overlay k o) table) := by
  rw [contribute,heard]
  split
  · rename_i h
    subst h
    rfl
  · rfl

theorem heard_nodup (h : r.Tidy) (name : ClassName) : ((r.heard name).map (·.1)).Nodup := by
  rw [heard]
  split
  · exact List.nodup_nil
  · exact h.declared_keys name

theorem domainProperties_nodup (name : ClassName) : (name.domainProperties.map (·.1)).Nodup := by
  cases name with
  | defined => exact List.nodup_nil
  | builtin b => cases b <;> decide

theorem lookup_along_cons (h : r.Tidy) (name : ClassName) (lineage : List ClassName) (key : String) :
    (r.along (name :: lineage)).lookup key =
      Options.layered ((r.heard name).lookup key) (name.domainProperties.lookup key) ((r.along lineage).lookup key) := by
  rw [along,List.foldr_cons,contribute_eq,OptionTable.lookup_foldl_upsert (heard_nodup h name),
    OptionTable.lookup_foldl_upsert (domainProperties_nodup name)]
  rfl

theorem along_isSome (h : r.Tidy) : ((r.along lineage).lookup key).isSome = true ↔ r.IsSupplied lineage key := by
  induction lineage with
  | nil => simp [along,IsSupplied]
  | cons name lineage ih =>
    have hfirst : (r.supplied? key name).isSome = true ↔ ((r.heard name).lookup key).isSome = true ∨
        (name.domainProperties.lookup key).isSome = true := by
      rw [supplied?,Options.layered_isSome]
      simp
    rw [lookup_along_cons h,Options.layered_isSome,ih,← or_assoc,← hfirst]
    simp [IsSupplied]

section Part

variable {α : Type} {part : Options → Option α}

/-- What a class declares for a part of the options of a key. -/
def declares? (r : Registry) (key : String) (part : Options → Option α) (name : ClassName) : Option α :=
  ((r.heard name).lookup key).bind part

/-- What a class has for a part of the options of a key by being a domain base. -/
def injects? (key : String) (part : Options → Option α) (name : ClassName) : Option α :=
  (name.domainProperties.lookup key).bind part

theorem supplied_part (hpart : Options.IsPart part) (name : ClassName) : (r.supplied? key name).bind part =
    (r.declares? key part name <|> injects? key part name) := by
  rw [supplied?,hpart.layered,Option.bind_none,declares?,injects?]
  simp

theorem inherited_part (hpart : Options.IsPart part) : part (r.inherited lineage key) =
    lineage.findSome? fun name => r.declares? key part name <|> injects? key part name := by
  rw [inherited,hpart.firstOf]
  induction lineage with
  | nil => rfl
  | cons name lineage ih =>
    rw [List.filterMap_cons,List.findSome?_cons,← supplied_part hpart,← ih]
    cases hsupplied : r.supplied? key name with
    | none => rfl
    | some o => rw [List.findSome?_cons,Option.bind_some]

theorem along_part (h : r.Tidy) (hpart : Options.IsPart part) :
    ((r.along lineage).lookup key).bind part = part (r.inherited lineage key) := by
  rw [inherited_part hpart]
  induction lineage with
  | nil => rfl
  | cons name lineage ih =>
    rw [lookup_along_cons h,hpart.layered,ih,List.findSome?_cons]
    change (r.declares? key part name <|> injects? key part name <|> _) = _
    cases r.declares? key part name <;> cases injects? key part name <;> rfl

end Part

theorem reaches_cons {kind way : ClassName → Prop} :
    Reaches kind way (name :: lineage) ↔ way name ∧ (kind name ∨ Reaches kind way lineage) := by
  constructor
  · rintro ⟨before,base,after,heq,hbase,hbefore⟩
    cases before with
    | nil =>
      obtain ⟨rfl,rfl⟩ := List.cons.inj heq
      exact ⟨hbefore name List.mem_cons_self,.inl hbase⟩
    | cons first before =>
      obtain ⟨rfl,rfl⟩ := List.cons.inj heq
      rw [List.cons_append,List.forall_mem_cons] at hbefore
      exact ⟨hbefore.1,.inr ⟨before,base,after,rfl,hbase,hbefore.2⟩⟩
  · rintro ⟨hway,hbase | ⟨before,base,after,rfl,hbase,hbefore⟩⟩
    · exact ⟨[],name,lineage,rfl,hbase,List.forall_mem_singleton.mpr hway⟩
    · refine ⟨name :: before,base,after,rfl,hbase,?_⟩
      rw [List.cons_append,List.forall_mem_cons]
      exact ⟨hway,hbefore⟩

theorem along_synthetic (h : r.Tidy) :
    ((r.along lineage).lookup key).any (·.synthetic) = true ↔ r.IsSynthetic lineage key := by
  induction lineage with
  | nil => simp [along,IsSynthetic,Reaches]
  | cons name lineage ih =>
    rw [lookup_along_cons h,Options.layered_synthetic,Bool.and_eq_true,Bool.or_eq_true,ih,Option.isNone_iff_eq_none]
    unfold IsSynthetic
    rw [reaches_cons]

/-- The options that a lineage leaves stand in the order in which their keys are introduced. -/
theorem along_keys (r : Registry) (lineage : List ClassName) : (r.along lineage).map (·.1) = r.introduced lineage := by
  induction lineage with
  | nil => rfl
  | cons name lineage ih =>
    -- what a domain base brings goes in before what is declared for it
    have hold : ((r.along lineage).map (·.1)).Nodup := ih ▸ eraseDups_nodup _
    have hinjected : (name.domainProperties.foldl (fun t (k, o) => t.upsert .overlay k o) (r.along lineage)).map (·.1) =
        ((r.along lineage).map (·.1) ++ name.domainProperties.map (·.1)).eraseDups :=
      OptionTable.foldl_upsert_keys _ hold
    have hfirst : r.along (name :: lineage) = r.contribute (r.along lineage) name := rfl
    rw [hfirst,contribute_eq,OptionTable.foldl_upsert_keys _ (hinjected ▸ eraseDups_nodup _),hinjected,ih,introduced,
      introduced,List.reverse_cons,List.flatMap_append,List.flatMap_singleton,keysFrom,← List.append_assoc]
    refine eraseDups_append_congr ?_
    rw [eraseDups_of_nodup (eraseDups_nodup _)]
    exact eraseDups_append_congr (eraseDups_of_nodup (eraseDups_nodup _))

/-- What the options under a key are, read off the lineage. -/
structure Gathered (r : Registry) (lineage : List ClassName) (key : String) (o : Options) : Prop where
  supplied : r.IsSupplied lineage key
  parts : ∀ {α : Type} {part : Options → Option α}, Options.IsPart part → part o = part (r.inherited lineage key)
  synthetic : o.synthetic = true ↔ r.IsSynthetic lineage key

theorem Gathered.identifies {o : Options} (h : r.Gathered lineage key o) :
    o.identifies = (r.inherited lineage key).identifies := by
  rw [Options.identifies,Options.identifies,h.parts .isIdentifier]

theorem lookup_folded {o : Options} : (r.folded c).lookup key = some o ↔ (key, o) ∈ r.folded c := by
  constructor
  · exact mem_of_lookup
  · exact fun h => lookup_of_nodup (r.folded_keys_nodup c) h

theorem gathered_of_mem (h : r.Tidy) {o : Options} (hmem : (key, o) ∈ r.folded c) : r.Gathered c.lineage key o := by
  have hlookup := lookup_folded.mpr hmem
  rw [folded_eq] at hlookup
  refine ⟨(along_isSome h).mp (by rw [hlookup]; rfl),fun hpart => ?_,?_⟩
  · rw [← along_part h hpart,hlookup]
    rfl
  · rw [← along_synthetic h,hlookup]
    rfl

theorem mem_of_supplied (h : r.Tidy) (hkey : r.IsSupplied c.lineage key) : ∃ o, (key, o) ∈ r.folded c := by
  obtain ⟨o,ho⟩ := Option.isSome_iff_exists.mp ((along_isSome h).mpr hkey)
  rw [← folded_eq] at ho
  exact ⟨o,lookup_folded.mp ho⟩

end Registry

end Trischema
