import Trischema.Proofs.Registry.Overriding

/-!
How the identifier of a class is chosen. Two keys that were declared to be the identifier are refused, and one that was
wins. What was declared is read off the lineage, except for a key whose flag comes from a domain base: that key counts
as declared once anything is declared for it up to the base.
-/

namespace Trischema

namespace Registry

variable {r : Registry} {c : Class Value} {key name : String} {lineage : List ClassName}

/-- Whether the most derived declaration that says whether a key is the identifier says that it is. -/
def IsMeant (r : Registry) (lineage : List ClassName) (key : String) : Prop :=
  lineage.findSome? (r.declares? key Options.isIdentifier) = some true

/-- Whether the choice of the identifier mistakes a key. The flag of the key comes from a domain base, and the key was
declared up to the base without the flag, or the flag was declared behind the base alone. -/
def IsMistaken (r : Registry) (lineage : List ClassName) (key : String) : Prop :=
  r.IsInjected lineage key Options.isIdentifier ∧ (r.IsSynthetic lineage key ↔ r.IsMeant lineage key)

/-- Whether all that stays of a class can be put together: each key has a type of some kind, and composite keys name
such keys. -/
structure Composes (r : Registry) (c : Class Value) : Prop where
  classified : ∀ key, r.IsSupplied c.lineage key → ¬r.IsDropped c.lineage key →
    ∃ k, r.classify c key (r.inherited c.lineage key) = .ok k
  together : ∀ group ∈ (r.registration c).together, ∀ key ∈ group,
    r.IsSupplied c.lineage key ∧ ¬r.IsDropped c.lineage key

section Lineage

theorem notMeant (h : lineage.findSome? (r.declares? key Options.isIdentifier) = none) : ¬r.IsMeant lineage key := by
  rw [IsMeant,h]
  exact nofun

/-- What a domain base brings is flagged as the identifier exactly where it is synthetic, which only `Entity` has. -/
theorem domainProperties_flag {base : ClassName} {entry : String × Options} (h : entry ∈ base.domainProperties) :
    entry.2.isIdentifier = (if entry.2.synthetic then some true else none) ∧
      (entry.2.synthetic = true → base = .builtin .entity) := by
  cases base with
  | defined => cases h
  | builtin b =>
    cases b with
    | entity =>
      simp only [ClassName.domainProperties,Builtin.domainProperties,List.mem_cons,List.not_mem_nil,or_false] at h
      rcases h with rfl | rfl | rfl <;> simp
    | enumeration =>
      simp only [ClassName.domainProperties,Builtin.domainProperties,List.mem_cons,List.not_mem_nil,or_false] at h
      rcases h with rfl | rfl <;> simp
    | _ => cases h

theorem injects_isIdentifier {base : ClassName} : injects? key Options.isIdentifier base =
    if (base.domainProperties.lookup key).any (·.synthetic) then some true else none := by
  rw [injects?]
  cases hlookup : base.domainProperties.lookup key with
  | none => rfl
  | some o => exact (domainProperties_flag (mem_of_lookup hlookup)).1

theorem synthetic_domain {base : ClassName} (h : (base.domainProperties.lookup key).any (·.synthetic) = true) :
    key = "id" ∧ base = .builtin .entity := by
  rw [Option.any_eq_true] at h
  obtain ⟨o,hlookup,hsynthetic⟩ := h
  have hmem := mem_of_lookup hlookup
  exact ⟨base.domainProperties_synthetic _ hmem hsynthetic,(domainProperties_flag hmem).2 hsynthetic⟩

/-- What is reached by way of classes of a kind is reached by way of classes of a wider one. -/
theorem Reaches.mono {kind kind' way way' : ClassName → Prop} (h : Reaches kind way lineage)
    (hkind : ∀ base, kind base → kind' base) (hway : ∀ name, way name → way' name) : Reaches kind' way' lineage := by
  obtain ⟨before,base,after,heq,hbase,hbefore⟩ := h
  exact ⟨before,base,after,heq,hkind base hbase,fun name hname => hway name (hbefore name hname)⟩

theorem injected_of_synthetic (h : r.IsSynthetic lineage key) : r.IsInjected lineage key Options.isIdentifier := by
  refine h.mono (fun base hbase => ?_) fun name hname => ?_
  · rw [injects_isIdentifier,if_pos hbase]
    rfl
  · rw [declares?,hname]
    rfl

theorem domain_of_injected (h : r.IsInjected lineage key Options.isIdentifier) :
    key = "id" ∧ .builtin .entity ∈ lineage := by
  obtain ⟨before,base,after,rfl,hbase,_⟩ := h
  rw [injects_isIdentifier] at hbase
  split at hbase
  · rename_i hsynthetic
    obtain ⟨hkey,rfl⟩ := synthetic_domain hsynthetic
    exact ⟨hkey,by simp⟩
  · cases hbase

theorem identifies_of_injected (h : r.IsInjected lineage key Options.isIdentifier) :
    (r.inherited lineage key).identifies = true := by
  obtain ⟨heq,hsome⟩ := inherited_injected .isIdentifier h
  obtain ⟨flag,hflag⟩ := Option.isSome_iff_exists.mp hsome
  obtain ⟨base,_,hbase⟩ := List.exists_of_findSome?_eq_some hflag
  rw [injects_isIdentifier] at hbase
  split at hbase
  · rw [Options.identifies,heq,hflag,← hbase]
    rfl
  · cases hbase

/-- A key whose flag comes from a domain base counts as declared once it is declared in any way up to the base. -/
theorem declaredIdentifier_of_injected (h : r.IsInjected lineage key Options.isIdentifier) :
    r.IsDeclaredIdentifier lineage key ↔ ¬r.IsSynthetic lineage key :=
  and_iff_right (identifies_of_injected h)

theorem declaredIdentifier_of_declared (h : ¬r.IsInjected lineage key Options.isIdentifier) :
    r.IsDeclaredIdentifier lineage key ↔ r.IsMeant lineage key := by
  have hdeclared : ¬r.IsSynthetic lineage key := fun hsynthetic => h (injected_of_synthetic hsynthetic)
  rw [IsDeclaredIdentifier,and_iff_left hdeclared,Options.identifies,inherited_declared .isIdentifier h,IsMeant,
    Option.getD_eq_iff]
  simp

/-- The keys that count as declared are those that are meant, but for a key that is mistaken. -/
theorem declaredIdentifier_iff :
    (¬r.IsMistaken lineage key → (r.IsDeclaredIdentifier lineage key ↔ r.IsMeant lineage key)) ∧
      (r.IsMistaken lineage key → key = "id" ∧ .builtin .entity ∈ lineage ∧
        (r.IsDeclaredIdentifier lineage key ↔ ¬r.IsMeant lineage key)) := by
  by_cases hinjected : r.IsInjected lineage key Options.isIdentifier
  · rw [declaredIdentifier_of_injected hinjected,IsMistaken,and_iff_right hinjected]
    obtain ⟨hkey,hbase⟩ := domain_of_injected hinjected
    refine ⟨fun h => ?_,fun h => ⟨hkey,hbase,not_congr h⟩⟩
    by_cases hmeant : r.IsMeant lineage key <;> simp_all
  · exact ⟨fun _ => declaredIdentifier_of_declared hinjected,fun h => absurd h.1 hinjected⟩

end Lineage

section Merging

theorem explicit_nodup (r : Registry) (c : Class Value) : (explicitIdentifiers (r.folded c)).Nodup :=
  (List.filter_sublist.map _).nodup (r.folded_keys_nodup c)

/-- The only fault of a class that is about several identifiers. -/
def manyIdentifiers (name : String) (keys : List String) : Error :=
  .definition (.manyIdentifiers name keys) ⟨some name, none⟩

/-- The descriptor of a class whose identifier was chosen. -/
def composed (r : Registry) (c : Class Value) (table : OptionTable) : Except Error Descriptor := do
  let properties ← r.properties c (withIdentifier table (r.isEmbedded c))
  checkTogether (r.nameOf c) (properties.map (·.key)) (r.registration c).together
  return ⟨c, r.nameOf c, properties, r.isEmbedded c, (r.registration c).together⟩

/-- A class is described by its table when there is no declared identifier, without the synthetic one when there is one,
and refused when there are several. -/
theorem merge_outcome (r : Registry) (c : Class Value) :
    (explicitIdentifiers (r.folded c) = [] ∧ r.merge c = r.composed c (r.folded c)) ∨
      (∃ key, explicitIdentifiers (r.folded c) = [key] ∧ r.merge c = r.composed c (dropSynthetic (r.folded c) key)) ∨
      2 ≤ (explicitIdentifiers (r.folded c)).length ∧
        r.merge c = .error (manyIdentifiers (r.nameOf c) (explicitIdentifiers (r.folded c))) := by
  rw [merge]
  generalize explicitIdentifiers (r.folded c) = keys
  rcases keys with _ | ⟨key,_ | ⟨other,keys⟩⟩
  · exact .inl ⟨rfl,rfl⟩
  · exact .inr (.inl ⟨key,rfl,rfl⟩)
  · exact .inr (.inr ⟨Nat.le_add_left 2 _,rfl⟩)

theorem property_many {o : Options} {keys : List String} :
    r.property c key o ≠ .error (manyIdentifiers name keys) := by
  intro h
  rcases bind_eq_error.mp h with h | ⟨_,_,h⟩
  · rw [classify] at h
    repeat' split at h
    all_goals first | cases h | (dsimp only at h; split at h <;> cases h)
  · cases h

theorem properties_many {table : OptionTable} {keys : List String} :
    r.properties c table ≠ .error (manyIdentifiers name keys) := by
  induction table with
  | nil => exact nofun
  | cons entry rest ih =>
    intro h
    rcases bind_eq_error.mp h with h | ⟨_,_,h⟩
    · exact property_many h
    · rcases bind_eq_error.mp h with h | ⟨_,_,h⟩
      · exact ih h
      · cases h

theorem checkTogether_many {name' : String} {known keys : List String} {groups : List (List String)} :
    checkTogether name known groups ≠ .error (manyIdentifiers name' keys) := by
  induction groups with
  | nil => exact nofun
  | cons group groups ih =>
    rw [checkTogether]
    split
    · exact ih
    · exact nofun

theorem composed_many {table : OptionTable} {keys : List String} :
    r.composed c table ≠ .error (manyIdentifiers name keys) := by
  intro h
  rcases bind_eq_error.mp h with h | ⟨_,_,h⟩
  · exact properties_many h
  · rcases bind_eq_error.mp h with h | ⟨_,_,h⟩
    · exact checkTogether_many h
    · cases h

/-- A class is refused for its identifiers when several were declared, and then they are all named. -/
theorem merge_many {keys : List String} : r.merge c = .error (manyIdentifiers (r.nameOf c) keys) ↔
    explicitIdentifiers (r.folded c) = keys ∧ 2 ≤ keys.length := by
  rcases r.merge_outcome c with ⟨hnone,hmerge⟩ | ⟨key,hone,hmerge⟩ | ⟨hmany,hmerge⟩
  · rw [hmerge,hnone]
    refine iff_of_false composed_many ?_
    rintro ⟨rfl,hlong⟩
    exact absurd hlong (by decide)
  · rw [hmerge,hone]
    refine iff_of_false composed_many ?_
    rintro ⟨rfl,hlong⟩
    exact absurd hlong (by simp)
  · rw [hmerge]
    constructor
    · intro h
      obtain ⟨_,hkeys⟩ := DefinitionFault.manyIdentifiers.inj (Error.definition.inj (Except.error.inj h)).1
      exact ⟨hkeys,hkeys ▸ hmany⟩
    · rintro ⟨rfl,_⟩
      rfl

theorem checkTogether_ok {known : List String} {groups : List (List String)}
    (h : ∀ group ∈ groups, ∀ key ∈ group, key ∈ known) : checkTogether name known groups = .ok () := by
  induction groups with
  | nil => rfl
  | cons group groups ih =>
    obtain ⟨hgroup,hgroups⟩ := List.forall_mem_cons.mp h
    have hknown : group.filter (!known.contains ·) = [] := by
      rw [List.filter_eq_nil_iff]
      intro key hkey
      simp [hgroup key hkey]
    rw [checkTogether,hknown]
    exact ih hgroups

theorem properties_classified {table : OptionTable} (h : ∀ entry ∈ table, ∃ k, r.classify c entry.1 entry.2 = .ok k) :
    ∃ properties, r.properties c table = .ok properties := by
  induction table with
  | nil => exact ⟨[],rfl⟩
  | cons entry rest ih =>
    obtain ⟨⟨k,hk⟩,hrest⟩ := List.forall_mem_cons.mp h
    obtain ⟨properties,hproperties⟩ := ih hrest
    rw [Registry.properties,property,hk,hproperties]
    exact ⟨_,rfl⟩

/-- How a property is classified is read off the lineage. -/
theorem Gathered.classify {o : Options} (h : r.Gathered c.lineage key o) :
    r.classify c key o = r.classify c key (r.inherited c.lineage key) := by
  rw [Registry.classify,Registry.classify,h.parts .type,h.parts .enum,h.parts .relationship]

/-- A class with one declared identifier can be described when the rest of it can, and that key is the identifier. -/
theorem merge_one (h : r.Tidy) (hc : r.Composes c)
    (hone : ∀ other, r.IsDeclaredIdentifier c.lineage other ↔ other = key) :
    ∃ d, r.merge c = .ok d ∧ d.identifiers.map (·.key) = [key] := by
  have hexplicit : explicitIdentifiers (r.folded c) = [key] := by
    have hperm : (explicitIdentifiers (r.folded c)).Perm [key] := by
      rw [List.perm_ext_iff_of_nodup (explicit_nodup r c) (List.nodup_singleton key)]
      intro other
      rw [mem_explicit_iff h,hone,List.mem_singleton]
    exact List.perm_singleton.mp hperm
  have settled := Settled.declared key hexplicit
  obtain ⟨o,hmem,hid,hdeclared⟩ := mem_explicitIdentifiers.mp (hexplicit ▸ List.mem_singleton_self key)
  have hkept : (key, o) ∈ dropSynthetic (r.folded c) key := by simp [dropSynthetic,hmem]
  -- nothing has to be put in front of a table with an identifier
  have hfront (embedded : Bool) : withIdentifier (dropSynthetic (r.folded c) key) embedded =
      dropSynthetic (r.folded c) key := by
    have hany : ((dropSynthetic (r.folded c) key).any fun entry => entry.2.identifies) = true :=
      List.any_eq_true.mpr ⟨_,hkept,hid⟩
    simp [withIdentifier,hany]
  obtain ⟨properties,hproperties⟩ : ∃ properties, r.properties c (dropSynthetic (r.folded c) key) = .ok properties := by
    refine properties_classified fun entry hentry => ?_
    obtain ⟨k,p⟩ := entry
    obtain ⟨hfolded,hstays⟩ := (mem_settled h settled).mp hentry
    have gathered := gathered_of_mem h hfolded
    rw [gathered.classify]
    exact hc.classified k gathered.supplied hstays
  have htogether : checkTogether (r.nameOf c) (properties.map (·.key)) (r.registration c).together = .ok () := by
    refine checkTogether_ok fun group hgroup k hk => ?_
    obtain ⟨hsupplied,hstays⟩ := hc.together group hgroup k hk
    obtain ⟨p,hfolded⟩ := mem_of_supplied h hsupplied
    rw [properties_keys hproperties]
    exact List.mem_map.mpr ⟨(k, p),(mem_settled h settled).mpr ⟨hfolded,hstays⟩,rfl⟩
  obtain ⟨d,hd,hdproperties⟩ : ∃ d, r.merge c = .ok d ∧ d.properties = properties := by
    have hmerge : r.merge c = r.composed c (dropSynthetic (r.folded c) key) := by
      rcases r.merge_outcome c with ⟨hnone,_⟩ | ⟨key',hone,hmerge⟩ | ⟨hmany,_⟩
      · rw [hexplicit] at hnone
        cases hnone
      · rw [hexplicit] at hone
        cases hone
        exact hmerge
      · rw [hexplicit] at hmany
        exact absurd hmany (by simp)
    rw [hmerge,composed,hfront,hproperties,ok_bind,htogether]
    exact ⟨_,rfl,rfl⟩
  obtain ⟨p,hp,hproperty⟩ := exists_right_of_forall₂ (properties_ok hproperties) hkept
  obtain ⟨_,_,heq⟩ := property_ok hproperty
  have hidentifies : p ∈ d.identifiers := by
    refine List.mem_filter.mpr ⟨hdproperties ▸ hp,?_⟩
    rw [heq]
    exact hid
  obtain ⟨q,hq⟩ := List.length_eq_one_iff.mp
    (Nat.le_antisymm (merge_identifiers_length hd).1 (List.length_pos_of_mem hidentifies))
  rw [hq,List.mem_singleton] at hidentifies
  exact ⟨d,hd,by rw [hq,← hidentifies,heq]; rfl⟩

end Merging

end Registry

namespace CachedRegistry

open Registry

variable {c : Class Value} {s : CachedRegistry}

/-- A class is refused for its identifiers exactly when two keys are ones, and a class with one has no other. -/
structure Chooses (s : CachedRegistry) (c : Class Value) (isOne : String → Prop) : Prop where
  refused : (∃ keys, (s.descriptor (.cls c)).1 = .error (manyIdentifiers (s.registry.nameOf c) keys)) ↔
    ∃ key other, key ≠ other ∧ isOne key ∧ isOne other
  named : ∀ keys, (s.descriptor (.cls c)).1 = .error (manyIdentifiers (s.registry.nameOf c) keys) →
    keys.Nodup ∧ ∀ key, key ∈ keys ↔ isOne key
  only : ∀ key, (∀ other, isOne other ↔ other = key) → s.registry.Composes c →
    ∃ d, (s.descriptor (.cls c)).1 = .ok d ∧ d.identifiers.map (·.key) = [key]

theorem Chooses.congr {isOne isOne' : String → Prop} (h : s.Chooses c isOne) (hsame : ∀ key, isOne key ↔ isOne' key) :
    s.Chooses c isOne' := by
  have heq : isOne = isOne' := funext fun key => propext (hsame key)
  exact heq ▸ h

/-- Whatever was done to a registry, a registered class is refused for its identifiers exactly when two keys count as
declared ones, and the only one that does is the identifier. Where no key is mistaken these are the keys that are meant;
only the `id` of a class below `Entity` can be mistaken, and then it counts just when it is not meant. -/
theorem descriptor_chooses {demands : List Demand} (hs : s = run {} demands) (hc : s.registry.isRegistered c = true) :
    s.Chooses c (s.registry.IsDeclaredIdentifier c.lineage) ∧
      ((∀ key, ¬s.registry.IsMistaken c.lineage key) → s.Chooses c (s.registry.IsMeant c.lineage)) ∧
      ∀ key, (¬s.registry.IsMistaken c.lineage key →
          (s.registry.IsDeclaredIdentifier c.lineage key ↔ s.registry.IsMeant c.lineage key)) ∧
        (s.registry.IsMistaken c.lineage key → key = "id" ∧ .builtin .entity ∈ c.lineage ∧
          (s.registry.IsDeclaredIdentifier c.lineage key ↔ ¬s.registry.IsMeant c.lineage key)) := by
  obtain ⟨hcoherent,htidy⟩ := coherent_tidy hs
  have hmerge : (s.descriptor (.cls c)).1 = s.registry.merge c := by
    rw [(hcoherent.descriptor (.cls c)).1,Registry.descriptor,if_pos hc]
  have hkeys := explicit_nodup s.registry c
  have counted : s.Chooses c (s.registry.IsDeclaredIdentifier c.lineage) := by
    refine ⟨?_,fun keys h => ?_,fun key hone hcomposes => ?_⟩
    · simp only [hmerge,merge_many,exists_eq_left',two_le_length_iff hkeys,mem_explicit_iff htidy]
    · rw [hmerge,merge_many] at h
      obtain ⟨rfl,_⟩ := h
      exact ⟨hkeys,fun key => mem_explicit_iff htidy⟩
    · rw [hmerge]
      exact merge_one htidy hcomposes hone
  refine ⟨counted,fun hnone => ?_,fun key => declaredIdentifier_iff⟩
  exact counted.congr fun key => declaredIdentifier_iff.1 (hnone key)

/-- Makes a text property of a class its identifier. -/
def identifyText (c : Class Value) (key : String) : Demand :=
  .property (.cls c) (.str key) [("type", .type (.builtin .text)), ("is_identifier", .bool true)]

/-- Animals are known by a tag. Dogs have a licence too, which may be an identifier as well. -/
def tagged (both : Bool) : List Demand :=
  [identifyText animal "tag", if both then identifyText dog "licence" else declareText dog "licence"]

/-- Where nothing is declared for `id`, nothing is mistaken. -/
theorem notMistaken_of_undeclared {r : Registry} {lineage : List ClassName}
    (h : ∀ name ∈ lineage, (r.heard name).lookup "id" = none) (key : String) : ¬r.IsMistaken lineage key := by
  rintro ⟨hinjected,hsame⟩
  obtain ⟨rfl,hbase⟩ := domain_of_injected hinjected
  obtain ⟨before,after,rfl⟩ := List.append_of_mem hbase
  have hsynthetic : r.IsSynthetic (before ++ .builtin .entity :: after) "id" :=
    ⟨before,_,after,rfl,rfl,fun name hname => h name (by rw [List.append_cons]; exact List.mem_append_left _ hname)⟩
  obtain ⟨name,hname,hdeclared⟩ := List.exists_of_findSome?_eq_some (hsame.mp hsynthetic)
  rw [declares?,h name hname] at hdeclared
  cases hdeclared

theorem tagged_notMistaken (both : Bool) (key : String) :
    ¬(run {} (tagged both)).registry.IsMistaken dog.lineage key := by
  refine notMistaken_of_undeclared (fun name hname => ?_) key
  simp only [dog,Class.lineage,ClassName.lineage,List.mem_cons,List.not_mem_nil,or_false] at hname
  rcases hname with rfl | rfl | rfl | rfl <;> cases both <;> with_unfolding_all rfl

theorem tagged_supplied {key : String} (h : (run {} (tagged false)).registry.IsSupplied dog.lineage key) :
    key ∈ ["id", "created_at", "updated_at", "tag", "licence"] := by
  obtain ⟨_,htidy⟩ := coherent_tidy (show run {} (tagged false) = run {} _ from rfl)
  have hkeys : (run {} (tagged false)).registry.introduced dog.lineage =
      ["id", "created_at", "updated_at", "tag", "licence"] := by
    with_unfolding_all rfl
  exact hkeys ▸ (supplied_iff_introduced htidy).mp h

theorem tagged_composes : (run {} (tagged false)).registry.Composes dog := by
  refine ⟨fun key hsupplied _ => ?_,fun group hgroup => ?_⟩
  · have hkey := tagged_supplied hsupplied
    simp only [List.mem_cons,List.not_mem_nil,or_false] at hkey
    rcases hkey with rfl | rfl | rfl | rfl | rfl <;> exact ⟨_,by with_unfolding_all rfl⟩
  · have hnone : ((run {} (tagged false)).registry.registration dog).together = [] := by with_unfolding_all rfl
    rw [hnone] at hgroup
    cases hgroup

theorem tagged_meant (key : String) : (run {} (tagged false)).registry.IsMeant dog.lineage key ↔ key = "tag" := by
  constructor
  · intro h
    obtain ⟨_,htidy⟩ := coherent_tidy (show run {} (tagged false) = run {} _ from rfl)
    have hdeclared := (declaredIdentifier_iff.1 (tagged_notMistaken false key)).mpr h
    have hkey := tagged_supplied (supplied_of_identifies htidy hdeclared.1)
    simp only [List.mem_cons,List.not_mem_nil,or_false] at hkey
    rcases hkey with rfl | rfl | rfl | rfl | rfl
    case inr.inr.inr.inl => rfl
    all_goals exact absurd h (notMeant (by with_unfolding_all rfl))
  · rintro rfl
    with_unfolding_all rfl

theorem descriptor_chooses_dog :
    (∃ d, ((run {} (tagged false)).descriptor (.cls dog)).1 = .ok d ∧ d.identifiers.map (·.key) = ["tag"]) ∧
    ∃ keys, ((run {} (tagged true)).descriptor (.cls dog)).1 = .error (manyIdentifiers "Dog" keys) ∧ "tag" ∈ keys := by
  have hregistered (both : Bool) : (run {} (tagged both)).registry.isRegistered dog = true := by
    cases both <;> with_unfolding_all rfl
  obtain ⟨_,chooses,_⟩ := descriptor_chooses (show run {} (tagged false) = run {} _ from rfl) (hregistered false)
  obtain ⟨_,chooses',_⟩ := descriptor_chooses (show run {} (tagged true) = run {} _ from rfl) (hregistered true)
  have one := chooses (tagged_notMistaken false)
  have two := chooses' (tagged_notMistaken true)
  have hmeant (key : String) (hkey : key = "tag" ∨ key = "licence") :
      (run {} (tagged true)).registry.IsMeant dog.lineage key := by
    rcases hkey with rfl | rfl <;> with_unfolding_all rfl
  obtain ⟨keys,hkeys⟩ := two.refused.mpr ⟨"tag","licence",by decide,hmeant _ (.inl rfl),hmeant _ (.inr rfl)⟩
  have hname : (run {} (tagged true)).registry.nameOf dog = "Dog" := by with_unfolding_all rfl
  exact ⟨one.only "tag" tagged_meant tagged_composes,keys,hname ▸ hkeys,
    ((two.named keys hkeys).2 "tag").mpr (hmeant _ (.inl rfl))⟩

/-- A class whose `id` is a text, and another one of its properties the identifier. -/
def note : Class Value := ⟨.defined "Note" 0 [.builtin .entity, .builtin .object], none⟩

def notes : List Demand := [declareText note "id", identifyText note "code"]

/-- A class that is mixed into letters behind the domain base has its `id` for the identifier, letters a code. -/
def coded : List Demand :=
  [identifyText stamp "id", identifyText (letter true) "code"]

/-- The type of an `id` makes it a declared identifier; one that is declared behind the domain base is none. -/
theorem descriptor_chooses_mistaken :
    ((run {} notes).registry.IsMeant note.lineage "code" ∧ ¬(run {} notes).registry.IsMeant note.lineage "id" ∧
      ((run {} notes).descriptor (.cls note)).1 = .error (manyIdentifiers "Note" ["id", "code"])) ∧
    (run {} coded).registry.IsMeant (letter true).lineage "id" ∧
    (run {} coded).registry.IsMeant (letter true).lineage "code" ∧
    ((run {} coded).descriptor (.cls (letter true))).1.map (fun d => d.identifiers.map (·.key)) = .ok ["code"] := by
  refine ⟨⟨?_,notMeant ?_,?_⟩,?_,?_,?_⟩ <;> with_unfolding_all rfl

end CachedRegistry

end Trischema
