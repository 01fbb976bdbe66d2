import Trischema.Proofs.Registry.Identifiers
import Trischema.Proofs.Registry.Lineage

/-!
What a merged descriptor has from the lineage of its class: its keys, their parts and their order, the choice of the
identifier apart. Declaring again what is inherited moves no key.
-/

namespace Trischema

/-- A property has the parts of options. -/
structure Property.Carries (p : Property) (o : Options) : Prop where
  type : p.type = o.type.getD .absent
  unique : p.unique = o.unique
  optional : p.optional = o.optional
  isIdentifier : p.isIdentifier = o.identifies
  enum : p.enum = o.enum
  default : p.default = o.default
  relationship : p.relationship = o.relationship

theorem Property.Carries.of_parts {p : Property} {o o' : Options} (h : p.Carries o)
    (hsame : ∀ {α : Type} {part : Options → Option α}, Options.IsPart part → part o = part o') : p.Carries o' where
  type := by rw [h.type,hsame .type]
  unique := by rw [h.unique,hsame .unique]
  optional := by rw [h.optional,hsame .optional]
  isIdentifier := by rw [h.isIdentifier,Options.identifies,Options.identifies,hsame .isIdentifier]
  enum := by rw [h.enum,hsame .enum]
  default := by rw [h.default,hsame .default]
  relationship := by rw [h.relationship,hsame .relationship]

namespace Registry

variable {r : Registry} {c : Class Value} {key : String} {lineage : List ClassName}

/-- Whether a lineage leaves a key as an identifier that some class of it declared. -/
def IsDeclaredIdentifier (r : Registry) (lineage : List ClassName) (key : String) : Prop :=
  (r.inherited lineage key).identifies = true ∧ ¬r.IsSynthetic lineage key

/-- Whether a key is an identifier that nobody declared, where another key was declared to be the identifier. -/
def IsDropped (r : Registry) (lineage : List ClassName) (key : String) : Prop :=
  (r.inherited lineage key).identifies = true ∧ r.IsSynthetic lineage key ∧ ∃ other, r.IsDeclaredIdentifier lineage other

/-- Whether a class is stored on its own and its lineage leaves it without an identifier. -/
def LacksIdentifier (r : Registry) (c : Class Value) : Prop :=
  r.isEmbedded c = false ∧ ∀ key, (r.inherited c.lineage key).identifies = false

theorem supplied_of_identifies (h : r.Tidy) (hid : (r.inherited lineage key).identifies = true) :
    r.IsSupplied lineage key := by
  rw [← along_isSome h]
  cases hlookup : (r.along lineage).lookup key with
  | some o => rfl
  | none =>
    have hpart : ((r.along lineage).lookup key).bind (·.isIdentifier) = (r.inherited lineage key).isIdentifier :=
      along_part h .isIdentifier
    rw [hlookup] at hpart
    rw [Options.identifies,← hpart] at hid
    cases hid

theorem mem_explicit_iff (h : r.Tidy) :
    key ∈ explicitIdentifiers (r.folded c) ↔ r.IsDeclaredIdentifier c.lineage key := by
  rw [mem_explicitIdentifiers]
  constructor
  · rintro ⟨o,hmem,hid,hdeclared⟩
    have gathered := gathered_of_mem h hmem
    refine ⟨gathered.identifies ▸ hid,fun hsynthetic => ?_⟩
    rw [gathered.synthetic.mpr hsynthetic] at hdeclared
    cases hdeclared
  · rintro ⟨hid,hdeclared⟩
    obtain ⟨o,hmem⟩ := mem_of_supplied h (supplied_of_identifies h hid)
    have gathered := gathered_of_mem h hmem
    exact ⟨o,hmem,gathered.identifies.trans hid,Bool.eq_false_iff.mpr fun hsynthetic =>
      hdeclared (gathered.synthetic.mp hsynthetic)⟩

theorem explicitIdentifiers_eq_nil (h : r.Tidy) :
    explicitIdentifiers (r.folded c) = [] ↔ ¬∃ other, r.IsDeclaredIdentifier c.lineage other := by
  rw [List.eq_nil_iff_forall_not_mem,not_exists]
  exact forall_congr' fun other => not_congr (mem_explicit_iff h)

/-- What is settled is what was left, without the identifiers that are dropped. -/
theorem Settled.mem_iff {table settled : OptionTable} (h : Settled table settled) {entry : String × Options}
    (hentry : entry ∈ table) (hkeys : (table.map (·.1)).Nodup) : entry ∈ settled ↔
      ¬(entry.2.identifies = true ∧ entry.2.synthetic = true ∧ explicitIdentifiers table ≠ []) := by
  cases h with
  | undeclared hnone => simp [hentry,hnone]
  | declared key hone =>
    obtain ⟨o,hmem,_,hdeclared⟩ := mem_explicitIdentifiers.mp (hone ▸ List.mem_singleton_self key)
    have hother : entry.2.synthetic = true → entry.1 ≠ key := by
      rintro hsynthetic rfl
      have hfound : table.lookup entry.1 = some o := lookup_of_nodup hkeys hmem
      have hsame := (lookup_of_nodup hkeys hentry).symm.trans hfound
      rw [Option.some.inj hsame] at hsynthetic
      rw [hdeclared] at hsynthetic
      cases hsynthetic
    rw [dropSynthetic,List.mem_filter,hone]
    cases hsynthetic : entry.2.synthetic with
    | false => simp [hentry,hsynthetic]
    | true =>
      have hne := hother hsynthetic
      cases hid : entry.2.identifies <;> simp [hentry,hne,hsynthetic,hid]

theorem mem_settled (h : r.Tidy) {table : OptionTable} (settled : Settled (r.folded c) table) {o : Options} :
    (key, o) ∈ table ↔ (key, o) ∈ r.folded c ∧ ¬r.IsDropped c.lineage key := by
  have hiff (hmem : (key, o) ∈ r.folded c) : (key, o) ∈ table ↔ ¬r.IsDropped c.lineage key := by
    have gathered := gathered_of_mem h hmem
    rw [settled.mem_iff hmem (r.folded_keys_nodup c),IsDropped,← gathered.identifies,← gathered.synthetic,ne_eq,
      explicitIdentifiers_eq_nil h,not_not]
  constructor
  · intro hmem
    have hold := settled.sublist.subset hmem
    exact ⟨hold,(hiff hold).mp hmem⟩
  · rintro ⟨hold,hkept⟩
    exact (hiff hold).mpr hkept

theorem lacksIdentifier_iff (h : r.Tidy) {table : OptionTable} (settled : Settled (r.folded c) table) :
    r.LacksIdentifier c ↔ (!r.isEmbedded c && !table.any fun entry => entry.2.identifies) = true := by
  rw [settled.any_identifies,LacksIdentifier,Bool.and_eq_true,Bool.not_eq_true',Bool.not_eq_true',List.any_eq_false]
  refine and_congr_right fun _ => ⟨fun hnone entry hentry hid => ?_,fun hnone key => Bool.eq_false_iff.mpr fun hid => ?_⟩
  · rw [(gathered_of_mem h hentry).identifies,hnone] at hid
    cases hid
  · obtain ⟨o,hmem⟩ := mem_of_supplied h (supplied_of_identifies h hid)
    exact hnone _ hmem ((gathered_of_mem h hmem).identifies.trans hid)

section Identifier

variable {table : OptionTable} {embedded : Bool}

theorem mem_withIdentifier (hkeys : (table.map (·.1)).Nodup) {entry : String × Options} :
    entry ∈ withIdentifier table embedded ↔ entry ∈ table ∨
      (!embedded && !table.any fun entry => entry.2.identifies) = true ∧ table.lookup "id" = none ∧
        entry = ("id", synthesized) := by
  rw [withIdentifier]
  split
  · rename_i hlacks
    rw [List.mem_cons,List.mem_filter,bne_iff_ne,hlacks]
    cases hlookup : table.lookup "id" with
    | none =>
      have hfree (hentry : entry ∈ table) : entry.1 ≠ "id" := by
        have hother := List.lookup_eq_none_iff.mp hlookup entry hentry
        exact (bne_iff_ne.mp hother).symm
      constructor
      · rintro (heq | ⟨hentry,_⟩)
        · exact .inr ⟨rfl,rfl,heq⟩
        · exact .inl hentry
      · rintro (hentry | ⟨_,_,heq⟩)
        · exact .inr ⟨hentry,hfree hentry⟩
        · exact .inl heq
    | some o =>
      have hid : ("id", o) ∈ table := mem_of_lookup hlookup
      constructor
      · rintro (rfl | ⟨hentry,_⟩)
        · exact .inl hid
        · exact .inl hentry
      · rintro (hentry | ⟨_,hnone,_⟩)
        · by_cases hkey : entry.1 = "id"
          · have hsame := lookup_of_nodup hkeys hentry
            rw [hkey,hlookup] at hsame
            exact .inl (Prod.ext hkey (Option.some.inj hsame).symm)
          · exact .inr ⟨hentry,hkey⟩
        · cases hnone
  · rename_i hhas
    exact ⟨.inl,fun h => h.elim id fun h => absurd h.1 hhas⟩

theorem withIdentifier_keys (table : OptionTable) (embedded : Bool) :
    ((withIdentifier table embedded).map (·.1)).filter (· != "id") = (table.map (·.1)).filter (· != "id") := by
  rw [withIdentifier]
  split
  · rw [List.map_cons,List.filter_cons_of_neg (by simp),List.filter_map,List.filter_map,Function.comp_def,
      List.filter_filter]
    simp
  · rfl

/-- The choice of an identifier drops no key but `id`. -/
theorem Settled.keys {settled : OptionTable} (h : Settled table settled) (hsynthetic : table.SyntheticAtId) :
    (settled.map (·.1)).filter (· != "id") = (table.map (·.1)).filter (· != "id") := by
  cases h with
  | undeclared _ => rfl
  | declared key _ =>
    rw [dropSynthetic,List.filter_map,List.filter_map,List.filter_filter]
    refine congrArg _ (List.filter_congr fun entry hentry => ?_)
    have hid := hsynthetic entry hentry
    cases hs : entry.2.synthetic with
    | false => simp [hs]
    | true => simp [hid hs]

end Identifier

/-- What a merged descriptor has from the lineage of its class. -/
structure Inherits (r : Registry) (c : Class Value) (d : Descriptor) : Prop where
  /-- a key is there exactly when some class gives something for it, an identifier that is dropped or put in apart -/
  keys : ∀ key, key ∈ d.keys ↔
    r.IsSupplied c.lineage key ∧ ¬r.IsDropped c.lineage key ∨ r.LacksIdentifier c ∧ key = "id"
  /-- each part is the one that the nearest class gives that gives it -/
  parts : ∀ p ∈ d.properties, r.IsSupplied c.lineage p.key → p.Carries (r.inherited c.lineage p.key)
  synthetic : ∀ p ∈ d.properties, r.IsSupplied c.lineage p.key → (p.synthetic = true ↔ r.IsSynthetic c.lineage p.key)
  putIn : ∀ p ∈ d.properties, ¬r.IsSupplied c.lineage p.key → p.key = "id" ∧ p.Carries synthesized
  /-- keys stand in the order in which the lineage introduces them, from base to derived -/
  order : d.keys.filter (· != "id") = (r.introduced c.lineage).filter (· != "id")

/-- A property of a descriptor comes from the options under its key. -/
theorem Merged.carries {table : OptionTable} {d : Descriptor} (merged : Merged r c table d) {p : Property}
    (hp : p ∈ d.properties) :
    ∃ o, (p.key, o) ∈ withIdentifier table (r.isEmbedded c) ∧ p.Carries o ∧ p.synthetic = o.synthetic := by
  obtain ⟨⟨key,o⟩,hentry,hproperty⟩ := exists_left_of_forall₂ (properties_ok merged.properties) hp
  obtain ⟨_,_,rfl⟩ := property_ok hproperty
  exact ⟨o,hentry,⟨rfl,rfl,rfl,rfl,rfl,rfl,rfl⟩,rfl⟩

theorem LacksIdentifier.keeps (h : r.LacksIdentifier c) (key : String) : ¬r.IsDropped c.lineage key := by
  rintro ⟨hid,_⟩
  rw [h.2 key] at hid
  cases hid

/-- What stands in the table of a class at last: what was kept, and an identifier that was put in under a free key. -/
theorem mem_identified (h : r.Tidy) {table : OptionTable} (settled : Settled (r.folded c) table) {o : Options} :
    (key, o) ∈ withIdentifier table (r.isEmbedded c) ↔ (key, o) ∈ r.folded c ∧ ¬r.IsDropped c.lineage key ∨
      r.LacksIdentifier c ∧ ¬r.IsSupplied c.lineage "id" ∧ (key, o) = ("id", synthesized) := by
  have hkeys := settled.keys_nodup (r.folded_keys_nodup c)
  rw [mem_withIdentifier hkeys,mem_settled h settled,← lacksIdentifier_iff h settled]
  refine or_congr_right (and_congr_right fun hlacks => and_congr_left fun _ => ?_)
  constructor
  · intro hnone hsupplied
    obtain ⟨o,hmem⟩ := mem_of_supplied h hsupplied
    have hthere := (mem_settled h settled).mpr ⟨hmem,hlacks.keeps "id"⟩
    rw [lookup_of_nodup hkeys hthere] at hnone
    cases hnone
  · intro hfree
    cases hlookup : table.lookup "id" with
    | none => rfl
    | some o =>
      have hmem := ((mem_settled h settled).mp (mem_of_lookup hlookup)).1
      exact absurd (gathered_of_mem h hmem).supplied hfree

theorem Tidy.inherits (h : r.Tidy) {d : Descriptor} (hd : r.descriptor (.cls c) = .ok d) : r.Inherits c d := by
  obtain ⟨table,merged⟩ := merge_cases (descriptor_registered hd)
  have hdkeys : d.keys = (withIdentifier table (r.isEmbedded c)).map (·.1) := properties_keys merged.properties
  have hgathered (p : Property) (hp : p ∈ d.properties) (hsupplied : r.IsSupplied c.lineage p.key) :
      ∃ o, r.Gathered c.lineage p.key o ∧ p.Carries o ∧ p.synthetic = o.synthetic := by
    obtain ⟨o,hentry,hcarries,hsynthetic⟩ := merged.carries hp
    rcases (mem_identified h merged.settled).mp hentry with ⟨hmem,_⟩ | ⟨_,hfree,heq⟩
    · exact ⟨o,gathered_of_mem h hmem,hcarries,hsynthetic⟩
    · rw [(Prod.mk.inj heq).1] at hsupplied
      exact absurd hsupplied hfree
  have hthere {key : String} (hsupplied : r.IsSupplied c.lineage key) (hstays : ¬r.IsDropped c.lineage key) :
      key ∈ d.keys := by
    obtain ⟨o,hmem⟩ := mem_of_supplied h hsupplied
    rw [hdkeys]
    exact List.mem_map.mpr ⟨(key, o),(mem_identified h merged.settled).mpr (.inl ⟨hmem,hstays⟩),rfl⟩
  refine ⟨fun key => ⟨fun hkey => ?_,?_⟩,fun p hp hsupplied => ?_,fun p hp hsupplied => ?_,fun p hp hsupplied => ?_,?_⟩
  · obtain ⟨⟨key,o⟩,hentry,rfl⟩ := List.mem_map.mp (hdkeys ▸ hkey)
    rcases (mem_identified h merged.settled).mp hentry with ⟨hmem,hstays⟩ | ⟨hlacks,_,heq⟩
    · exact .inl ⟨(gathered_of_mem h hmem).supplied,hstays⟩
    · exact .inr ⟨hlacks,congrArg Prod.fst heq⟩
  · rintro (⟨hsupplied,hstays⟩ | ⟨hlacks,rfl⟩)
    · exact hthere hsupplied hstays
    · by_cases hsupplied : r.IsSupplied c.lineage "id"
      · exact hthere hsupplied (hlacks.keeps "id")
      · have hentry := (mem_identified h merged.settled).mpr (.inr ⟨hlacks,hsupplied,rfl⟩)
        exact hdkeys ▸ List.mem_map.mpr ⟨_,hentry,rfl⟩
  · obtain ⟨o,gathered,hcarries,_⟩ := hgathered p hp hsupplied
    exact hcarries.of_parts gathered.parts
  · obtain ⟨o,gathered,_,hsynthetic⟩ := hgathered p hp hsupplied
    rw [hsynthetic,gathered.synthetic]
  · obtain ⟨o,hentry,hcarries,_⟩ := merged.carries hp
    rcases (mem_identified h merged.settled).mp hentry with ⟨hmem,_⟩ | ⟨_,_,heq⟩
    · exact absurd (gathered_of_mem h hmem).supplied hsupplied
    · obtain ⟨hkey,ho⟩ := Prod.mk.inj heq
      exact ⟨hkey,ho ▸ hcarries⟩
  · rw [hdkeys,withIdentifier_keys,merged.settled.keys (r.folded_syntheticAtId c),folded_eq,along_keys]

section Redeclaring

variable {f : Step} {e : ClassName} {keys : List String}

/-- A declaration adds keys after those that a class gave before, and to its own class alone. -/
theorem Step.Concerns.keysFrom (hf : f.Concerns (some e) keys) (r : Registry) (name : ClassName) :
    (∃ more ⊆ keys, (f r).1.keysFrom name = r.keysFrom name ++ more) ∧
      (name ≠ e → (f r).1.keysFrom name = r.keysFrom name) := by
  rw [Registry.keysFrom,Registry.keysFrom,heard,heard]
  split
  · exact ⟨⟨[],List.nil_subset _,(List.append_nil _).symm⟩,fun _ => rfl⟩
  · refine ⟨?_,fun hne => ?_⟩
    · obtain ⟨more,hmore,heq⟩ := hf.declares r name
      exact ⟨more,hmore,by rw [heq,List.append_assoc]⟩
    · rw [declared_eq,declared_eq,hf.others r name fun h => hne (Option.some.inj h)]

/-- Declaring again what a class or one below it gives introduces nothing and moves nothing. -/
theorem Step.Concerns.introduced (hf : f.Concerns (some e) keys) {bases : List ClassName} (hbases : e ∉ bases)
    (hknown : keys ⊆ r.introduced (e :: bases)) (derived : List ClassName) :
    (f r).1.introduced (derived ++ e :: bases) = r.introduced (derived ++ e :: bases) := by
  have hflat (s : Registry) (name : ClassName) (names : List ClassName) :
      (name :: names).reverse.flatMap s.keysFrom = names.reverse.flatMap s.keysFrom ++ s.keysFrom name := by
    rw [List.reverse_cons,List.flatMap_append,List.flatMap_singleton]
  have hbelow : bases.reverse.flatMap (f r).1.keysFrom = bases.reverse.flatMap r.keysFrom := by
    rw [List.flatMap,List.flatMap]
    refine congrArg _ (List.map_congr_left fun name hname => (hf.keysFrom r name).2 ?_)
    rintro rfl
    exact hbases (List.mem_reverse.mp hname)
  rw [Registry.introduced,Registry.introduced]
  induction derived with
  | nil =>
    obtain ⟨more,hmore,heq⟩ := (hf.keysFrom r e).1
    -- the new keys go behind all that the class and its bases introduce, and they are among these
    rw [List.nil_append,hflat,hflat,hbelow,heq,← List.append_assoc]
    refine eraseDups_append_known fun key hkey => ?_
    rw [← hflat]
    exact List.mem_eraseDups.mp (hknown (hmore hkey))
  | cons name derived ih =>
    -- a class further down may be the same one again
    obtain ⟨more,hmore,heq⟩ := (hf.keysFrom r name).1
    rw [List.cons_append,hflat,hflat,heq,eraseDups_append_congr ih,← List.append_assoc]
    refine eraseDups_append_known fun key hkey => List.mem_append_left _ ?_
    have hfirst := List.mem_eraseDups.mp (hknown (hmore hkey))
    rw [List.reverse_append,List.flatMap_append]
    exact List.mem_append_left _ hfirst

end Redeclaring

theorem supplied_iff_introduced (h : r.Tidy) : r.IsSupplied lineage key ↔ key ∈ r.introduced lineage := by
  rw [← along_isSome h,← along_keys,List.mem_map,List.lookup_isSome_iff]
  exact exists_congr fun entry => and_congr_right' (by rw [beq_iff_eq,eq_comm])

end Registry

namespace CachedRegistry

variable {c : Class Value} {s : CachedRegistry}

/-- Whatever was done to a registry, a merged descriptor is what its lineage leaves, and declaring again what a class
or one below it gives moves no key. -/
theorem descriptor_inherits {demands : List Demand} {d : Descriptor} (hs : s = run {} demands)
    (h : (s.descriptor (.cls c)).1 = .ok d) :
    s.registry.Inherits c d ∧
      ∀ (q : Demand) (e : ClassName) (derived bases : List ClassName) (d' : Descriptor), q.target = some e →
        c.lineage = derived ++ e :: bases → e ∉ bases →
        (∀ key ∈ q.keys, s.registry.IsSupplied (e :: bases) key) →
        ((q.after s).descriptor (.cls c)).1 = .ok d' →
        d'.keys.filter (· != "id") = d.keys.filter (· != "id") := by
  obtain ⟨hcoherent,htidy⟩ := coherent_tidy hs
  rw [(hcoherent.descriptor (.cls c)).1] at h
  have inherits := htidy.inherits h
  refine ⟨inherits,fun q e derived bases d' htarget hlineage hbases hknown h' => ?_⟩
  have hcoherent' := (Demand.after_coherent hcoherent q).1
  have hq : q.registers = true := by
    cases q with
    | freeze | reading => cases htarget
    | _ => rfl
  rw [(hcoherent'.descriptor (.cls c)).1] at h'
  have inherits' := (tidy_after htidy hcoherent q).inherits h'
  have hconcerns := q.concerns_step
  rw [htarget] at hconcerns
  rw [inherits.order,inherits'.order,Demand.after,Demand.serve_step hq,hlineage]
  dsimp only
  rw [hconcerns.introduced hbases (fun key hkey => (Registry.supplied_iff_introduced htidy).mp (hknown key hkey))]

/-- A domain class, and a class below it. -/
def animal : Class Value := ⟨.defined "Animal" 0 [.builtin .entity, .builtin .object], none⟩

def dog : Class Value := ⟨.defined "Dog" 1 [animal.name, .builtin .entity, .builtin .object], none⟩

def declareText (c : Class Value) (key : String) : Demand := .property (.cls c) (.str key) [("type", .type (.builtin .text))]

/-- A status that dogs declare again stands before their breed. -/
theorem descriptor_inherits_dog : ∃ d d',
    ((run {} [declareText animal "status", declareText dog "breed"]).descriptor (.cls dog)).1 = .ok d ∧
    ((run {} [declareText animal "status", declareText dog "breed", declareText dog "status"]).descriptor (.cls dog)).1 =
      .ok d' ∧
    (run {} [declareText animal "status", declareText dog "breed"]).registry.Inherits dog d ∧
    d.keys = ["id", "created_at", "updated_at", "status", "breed"] ∧
    d'.keys.filter (· != "id") = d.keys.filter (· != "id") := by
  let s := run {} [declareText animal "status", declareText dog "breed"]
  have hkeys : (s.descriptor (.cls dog)).1.map (·.keys) = .ok ["id", "created_at", "updated_at", "status", "breed"] := by
    with_unfolding_all rfl
  have hkeys' : (((declareText dog "status").after s).descriptor (.cls dog)).1.map (·.keys) =
      .ok ["id", "created_at", "updated_at", "status", "breed"] := by
    with_unfolding_all rfl
  obtain ⟨d,hd,hdkeys⟩ := map_eq_ok.mp hkeys
  obtain ⟨d',hd',_⟩ := map_eq_ok.mp hkeys'
  obtain ⟨inherits,hmoved⟩ := descriptor_inherits (show s = run {} _ from rfl) hd
  refine ⟨d,d',hd,hd',inherits,hdkeys,?_⟩
  refine hmoved (declareText dog "status") dog.name [] _ d' rfl rfl (by decide) (fun key hkey => ?_) hd'
  cases List.mem_singleton.mp hkey
  exact ⟨animal.name,by decide,by with_unfolding_all rfl⟩

/-- A class below one with a text property that is called `id`. -/
def wheel : Class Value := ⟨.defined "Wheel" 1 [Registry.part.name, .builtin .object], none⟩

def ghosts : List Demand :=
  [declareText (Class.ofBuiltin .object) "ghost", declareText Registry.part "name", declareText Registry.part "id",
    declareText wheel "size"]

/-- What is declared for `object` is not heard, and declaring `id` again as the identifier moves it. -/
theorem descriptor_inherits_ghost :
    .builtin .object ∈ wheel.lineage ∧
    ((run {} ghosts).registry.declared (.builtin .object)).map (·.1) = ["ghost"] ∧
    ((run {} ghosts).descriptor (.cls wheel)).1.map (·.keys) = .ok ["id", "name", "size"] ∧
    ((run {} (ghosts ++ [.property (.cls wheel) (.str "id") [("is_identifier", .bool true)]])).descriptor
      (.cls wheel)).1.map (·.keys) = .ok ["name", "id", "size"] := by
  refine ⟨by decide,?_,?_,?_⟩ <;> with_unfolding_all rfl

end CachedRegistry

end Trischema
