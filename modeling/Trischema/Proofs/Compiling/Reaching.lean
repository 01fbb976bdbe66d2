import Trischema.Proofs.Compiling.Expansion

/-!
What a document schema is compiled from. Compiling reaches the classes that are embedded in what is kept of a class,
level by level; it fails for what is wrong with a class that it reaches, and for nothing else.
-/

namespace Trischema

namespace Registry

variable {r : Registry} {c : Class Value} {fault : Error}

/-- The faults of merged descriptors: a definition is at fault, or something that it needs is not registered. -/
def IsMergeFault : Error → Prop
  | .definition .. | .missing _ => True
  | _ => False

theorem classify_fault {key : String} {o : Options} (h : r.classify c key o = .error fault) : IsMergeFault fault := by
  rw [classify] at h
  dsimp only at h
  split at h
  · cases h
  · split at h
    · cases h
      trivial
    · split at h <;> cases h <;> trivial

theorem properties_fault {table : OptionTable} (h : r.properties c table = .error fault) : IsMergeFault fault := by
  induction table with
  | nil => cases h
  | cons entry rest ih =>
    rw [properties] at h
    rcases bind_eq_error.mp h with hproperty | ⟨p,_,h⟩
    · rcases bind_eq_error.mp hproperty with hclass | ⟨_,_,hproperty⟩
      · exact classify_fault hclass
      · cases hproperty
    · rcases bind_eq_error.mp h with hrest | ⟨_,_,h⟩
      · exact ih hrest
      · cases h

theorem checkTogether_fault {name : String} {keys : List String} {together : List (List String)}
    (h : checkTogether name keys together = .error fault) : IsMergeFault fault := by
  induction together with
  | nil => cases h
  | cons group rest ih =>
    rw [checkTogether] at h
    split at h
    · exact ih h
    · cases h
      trivial

theorem merge_fault (h : r.merge c = .error fault) : IsMergeFault fault := by
  have build {table : OptionTable}
      (h : (do
        let properties ← r.properties c table
        checkTogether (r.nameOf c) (properties.map (·.key)) (r.registration c).together
        return (⟨c, r.nameOf c, properties, r.isEmbedded c, (r.registration c).together⟩ : Descriptor)) =
          Except.error fault) : IsMergeFault fault := by
    rcases bind_eq_error.mp h with hproperties | ⟨_,_,h⟩
    · exact properties_fault hproperties
    · rcases bind_eq_error.mp h with htogether | ⟨_,_,h⟩
      · exact checkTogether_fault htogether
      · cases h
  simp only [merge] at h
  split at h
  · exact build h
  · exact build h
  · cases h
    trivial

/-- A target fails to resolve in one way alone. -/
theorem resolve_fault {key : String} {rel : Relationship Value} (h : r.resolve c key rel = .error fault) :
    ∃ reason, fault = .unresolved reason (r.nameOf c) key := by
  simp only [resolve] at h
  split at h
  · cases h
  · split at h
    · cases h
    · exact ⟨_,(Except.error.inj h).symm⟩
  · split at h
    · split at h
      · cases h
      · exact ⟨_,(Except.error.inj h).symm⟩
    · exact ⟨_,(Except.error.inj h).symm⟩

end Registry

namespace Document

variable {r : Registry} {nest : Class Value → Except Error Document} {c : Class Value} {d : Descriptor} {p : Property}
  {idField name : String} {embedded : Bool} {doc schema : Document} {fault : Error}

/-- Whether a property is among those that become fields. -/
def Keeps (d : Descriptor) (embedded : Bool) (p : Property) : Prop :=
  p ∈ d.properties ∧ (keepsId d embedded = true ∨ p.isIdentifier = false)

theorem mem_keptProperties {entry : String × Property} :
    entry ∈ keptProperties d (keepsId d embedded) idField ↔
      Keeps d embedded entry.2 ∧ entry.1 = if entry.2.isIdentifier then idField else entry.2.key := by
  rw [keptProperties,List.mem_map]
  constructor
  · rintro ⟨p,hp,rfl⟩
    obtain ⟨hp,hkept⟩ := List.mem_filter.mp hp
    rw [Bool.or_eq_true,Bool.not_eq_true'] at hkept
    exact ⟨⟨hp,hkept⟩,rfl⟩
  · rintro ⟨⟨hp,hkept⟩,hname⟩
    refine ⟨entry.2,List.mem_filter.mpr ⟨hp,?_⟩,?_⟩
    · rwa [Bool.or_eq_true,Bool.not_eq_true']
    · rw [← hname]

/-- What is wrong with a class itself: it is not registered, cannot be merged, or keeps a link whose target cannot be
resolved. -/
inductive Blocks (r : Registry) (embedded : Bool) (c : Class Value) : Error → Prop
  | unknown (hunknown : r.isRegistered c = false) : Blocks r embedded c (.missing (.metadata c.name.text))
  | unmerged {fault : Error} (hregistered : r.isRegistered c = true) (hmerge : r.merge c = .error fault) :
    Blocks r embedded c fault
  | unresolved {fault : Error} {d : Descriptor} {p : Property} {rel : Relationship Value}
    (hd : r.descriptor (.cls c) = .ok d) (hp : Keeps d embedded p) (hrel : p.relationship = some rel)
    (hresolve : r.resolve c p.key rel = .error fault) : Blocks r embedded c fault

/-- Whether a class is registered, merges, and has targets for the links that are kept of it. -/
structure Sound (r : Registry) (embedded : Bool) (c : Class Value) : Prop where
  registered : r.isRegistered c = true
  merges : ∃ d, r.merge c = .ok d ∧
    ∀ p, Keeps d embedded p → ∀ rel, p.relationship = some rel → ∃ target, r.resolve c p.key rel = .ok target

theorem Sound.not_blocks (h : Sound r embedded c) : ¬Blocks r embedded c fault := by
  obtain ⟨hregistered,d,hmerge,htargets⟩ := h
  intro hblocks
  cases hblocks with
  | unknown hunknown =>
    rw [hregistered] at hunknown
    cases hunknown
  | unmerged _ hfails =>
    rw [hmerge] at hfails
    cases hfails
  | unresolved hd hp hrel hresolve =>
    cases hmerge.symm.trans (Registry.descriptor_registered hd)
    obtain ⟨target,htarget⟩ := htargets _ hp _ hrel
    rw [htarget] at hresolve
    cases hresolve

theorem Blocks.code (h : Blocks r embedded c fault) : fault.code? = some "METADATA_MISSING" ∨
    fault.code? = some "SCHEMA_DEFINITION_ERROR" ∨ fault.code? = some "UNRESOLVED_RELATIONSHIP_TARGET" := by
  cases h with
  | unknown _ => exact .inl rfl
  | unmerged _ hmerge =>
    have hfault := Registry.merge_fault hmerge
    cases fault with
    | missing _ => exact .inl rfl
    | definition _ _ => exact .inr (.inl rfl)
    | _ => exact hfault.elim
  | unresolved _ _ _ hresolve =>
    obtain ⟨_,rfl⟩ := Registry.resolve_fault hresolve
    exact .inr (.inr rfl)

/-- A field fails with its link, or with the schema of the class that is embedded in it. -/
theorem fieldOf_error {k : Classification} (hk : p.classification = some k) (h : fieldOf r nest c name p = .error fault) :
    (∃ rel, k = .relationship rel ∧ r.resolve c p.key rel = .error fault) ∨
    ∃ e, p.embedded? = some e ∧ nest e = .error fault := by
  rw [fieldOf,hk] at h
  rcases bind_eq_error.mp h with hshape | ⟨_,_,h⟩
  · rw [Property.embedded?,hk]
    cases k with
    | relationship rel => exact .inl ⟨rel,rfl,map_eq_error.mp hshape⟩
    | single element | array element =>
      cases element with
      | embedded e => exact .inr ⟨e,rfl,map_eq_error.mp hshape⟩
      | _ => cases hshape
  · cases h

/-- The class that is embedded at a place among what is kept of a class. -/
def nestedAt? (r : Registry) (idField : String) (embedded : Bool) (c : Class Value) (i : Nat) : Option (Class Value) :=
  (r.descriptor (.cls c)).toOption.bind fun d =>
    (keptProperties d (keepsId d embedded) idField)[i]?.bind (·.2.embedded?)

theorem nestedAt?_eq (hd : r.descriptor (.cls c) = .ok d) (i : Nat) : nestedAt? r idField embedded c i =
    (keptProperties d (keepsId d embedded) idField)[i]?.bind (·.2.embedded?) := by
  rw [nestedAt?,hd]
  rfl

/-- What is nested in a class is embedded in a property that is kept of it. -/
theorem nestedAt?_eq_some {i : Nat} {e : Class Value} (h : nestedAt? r idField embedded c i = some e) :
    ∃ d p, r.descriptor (.cls c) = .ok d ∧ Keeps d embedded p ∧ p.embedded? = some e := by
  cases hd : r.descriptor (.cls c) with
  | error fault =>
    rw [nestedAt?,hd] at h
    cases h
  | ok d =>
    rw [nestedAt?_eq hd] at h
    obtain ⟨entry,hentry,he⟩ := Option.bind_eq_some_iff.mp h
    exact ⟨d,entry.2,rfl,(mem_keptProperties.mp (List.mem_of_getElem? hentry)).1,he⟩

theorem classAt?_cons (i : Nat) (path : List Nat) : classAt? r idField embedded c (i :: path) =
    (nestedAt? r idField embedded c i).bind fun e => classAt? r idField true e path := by
  rw [classAt?,nestedAt?]
  cases r.descriptor (.cls c) <;> rfl

/-- A level fails for its class itself, or for a class that is embedded in it. -/
theorem level_error (h : level r idField nest embedded c = .error fault) :
    Blocks r embedded c fault ∨ ∃ i e, nestedAt? r idField embedded c i = some e ∧ nest e = .error fault := by
  cases hregistered : r.isRegistered c with
  | false =>
    rw [level,r.descriptor_of_unregistered hregistered] at h
    cases h
    exact .inl (.unknown hregistered)
  | true =>
    have hdescriptor := Registry.descriptor_of_registered hregistered
    rcases bind_eq_error.mp h with hfails | ⟨d,hd,h⟩
    · exact .inl (.unmerged hregistered (hdescriptor ▸ hfails))
    · rcases bind_eq_error.mp h with hfields | ⟨_,_,h⟩
      · rw [fieldsOf_eq] at hfields
        obtain ⟨entry,hentry,hfield⟩ := exists_of_mapM_error hfields
        have hkept := (mem_keptProperties.mp hentry).1
        obtain ⟨k,hk,hlink⟩ := Registry.merge_classified (Registry.descriptor_registered hd) hkept.1
        rcases fieldOf_error hk hfield with ⟨rel,hrel,hresolve⟩ | ⟨e,he,hnest⟩
        · exact .inl (.unresolved hd hkept ((hlink rel).mp hrel) hresolve)
        · obtain ⟨i,hi⟩ := List.mem_iff_getElem?.mp hentry
          refine .inr ⟨i,e,?_,hnest⟩
          rw [nestedAt?_eq hd]
          exact Option.bind_eq_some_iff.mpr ⟨entry,hi,he⟩
      · cases h

/-- The class of a level is sound, and what is embedded in it has schemas. -/
theorem Level.sound (h : Level r idField nest embedded c d schema) : Sound r embedded c := by
  have hmerge := Registry.descriptor_registered h.descriptor
  refine ⟨Registry.isRegistered_of_descriptor h.descriptor,d,hmerge,fun p hp rel hrel => ?_⟩
  have hentry : (if p.isIdentifier then idField else p.key, p) ∈ keptProperties d (keepsId d embedded) idField := by
    rw [mem_keptProperties]
    exact ⟨hp,rfl⟩
  obtain ⟨f,_,hfield⟩ := exists_right_of_forall₂ h.fields hentry
  obtain ⟨k,hk,hlink⟩ := Registry.merge_classified hmerge hp.1
  obtain ⟨k',shape,hk',hshape,_⟩ := fieldOf_eq_ok.mp hfield
  cases hk.symm.trans hk'
  cases (hlink rel).mpr hrel
  cases hshape with
  | references htarget => exact ⟨_,htarget⟩

theorem Level.nests (h : Level r idField nest embedded c d schema) {i : Nat} {e : Class Value}
    (he : nestedAt? r idField embedded c i = some e) : ∃ nested, nest e = .ok nested := by
  rw [nestedAt?_eq h.descriptor] at he
  obtain ⟨entry,hentry,he⟩ := Option.bind_eq_some_iff.mp he
  obtain ⟨f,_,hfield⟩ := exists_right_of_forall₂ h.fields (List.mem_of_getElem? hentry)
  obtain ⟨k,shape,hk,hshape,_⟩ := fieldOf_eq_ok.mp hfield
  have hnested := hshape.embeds
  rw [Property.embedded?,hk] at he
  rw [show k.embedded? = some e from he] at hnested
  generalize shape.nested? = nested at hnested
  cases hnested with
  | some hexpand => exact ⟨_,hexpand⟩

/-- A class whose schema cannot be expanded leads, within the levels, to a class that is itself at fault. -/
theorem expand_blocked {levels : Nat} (h : expand r idField levels embedded c = .error fault) :
    ∃ path embedded' c', path.length < levels ∧ classAt? r idField embedded c path = some (embedded', c') ∧
      Blocks r embedded' c' fault := by
  induction levels generalizing embedded c with
  | zero => cases h
  | succ levels ih =>
    rw [expand_level] at h
    rcases level_error h with hblocks | ⟨i,e,he,hexpand⟩
    · exact ⟨[],embedded,c,Nat.succ_pos levels,rfl,hblocks⟩
    · obtain ⟨path,embedded',c',hlength,hclass,hblocks⟩ := ih hexpand
      refine ⟨i :: path,embedded',c',Nat.succ_lt_succ hlength,?_,hblocks⟩
      rw [classAt?_cons,he]
      exact hclass

/-- The classes that a schema was expanded from are sound, within the levels. -/
theorem expand_sound {levels : Nat} (h : expand r idField levels embedded c = .ok doc) {path : List Nat}
    {embedded' : Bool} {c' : Class Value} (hlength : path.length < levels)
    (hclass : classAt? r idField embedded c path = some (embedded', c')) : Sound r embedded' c' := by
  obtain ⟨levels,rfl⟩ : ∃ n, levels = n + 1 := Nat.exists_eq_add_one.mpr (Nat.zero_lt_of_lt hlength)
  obtain ⟨d,hlevel⟩ := level_eq_ok.mp h
  induction path generalizing levels embedded c d doc with
  | nil =>
    cases hclass
    exact hlevel.sound
  | cons i path ih =>
    rw [classAt?_cons] at hclass
    obtain ⟨e,he,hclass⟩ := Option.bind_eq_some_iff.mp hclass
    obtain ⟨nested,hnested⟩ := hlevel.nests he
    have hlength := Nat.lt_of_succ_lt_succ hlength
    obtain ⟨levels,rfl⟩ : ∃ n, levels = n + 1 := Nat.exists_eq_add_one.mpr (Nat.zero_lt_of_lt hlength)
    obtain ⟨d',hlevel'⟩ := level_eq_ok.mp hnested
    exact ih hclass levels hnested hlength d' hlevel'

/-- Compiling a class succeeds just where every class that it reaches within the limit is registered, merges, and has
targets for the links that are kept of it. It fails with what is wrong with one of these classes, which is something
that is missing, a faulty definition, or a target that cannot be resolved. -/
theorem compile_reaches {s : Settings} {maxDepth : Option Int} {limit : Nat}
    (hlimit : Settings.limit (.ok s) maxDepth = .ok limit) (depth : Int) (embedded : Bool) (c : Class Value) :
    ((∃ doc, compile r (.ok s) (.cls c) maxDepth depth embedded = .ok doc) ↔
      ∀ path embedded' c', depth + path.length ≤ limit →
        classAt? r s.documentIdField embedded c path = some (embedded', c') → Sound r embedded' c') ∧
    ∀ fault, compile r (.ok s) (.cls c) maxDepth depth embedded = .error fault →
      (∃ path embedded' c', depth + path.length ≤ limit ∧
        classAt? r s.documentIdField embedded c path = some (embedded', c') ∧ Blocks r embedded' c' fault) ∧
      (fault.code? = some "METADATA_MISSING" ∨ fault.code? = some "SCHEMA_DEFINITION_ERROR" ∨
        fault.code? = some "UNRESOLVED_RELATIONSHIP_TARGET") := by
  have hwithin (path : List Nat) : path.length < levelsFrom depth limit ↔ depth + path.length ≤ limit := by
    rw [levelsFrom]
    omega
  rw [compile_expand hlimit]
  have herror (fault : Error) (h : expand r s.documentIdField (levelsFrom depth limit) embedded c = .error fault) :
      ∃ path embedded' c', depth + path.length ≤ limit ∧
        classAt? r s.documentIdField embedded c path = some (embedded', c') ∧ Blocks r embedded' c' fault := by
    obtain ⟨path,embedded',c',hlength,hclass,hblocks⟩ := expand_blocked h
    exact ⟨path,embedded',c',(hwithin path).mp hlength,hclass,hblocks⟩
  refine ⟨⟨?_,fun hall => ?_⟩,fun fault hfault => ⟨herror fault hfault,?_⟩⟩
  · rintro ⟨doc,hdoc⟩ path embedded' c' hlength
    exact expand_sound hdoc ((hwithin path).mpr hlength)
  · refine exists_ok_of_no_error fun fault hfault => ?_
    obtain ⟨path,embedded',c',hlength,hclass,hblocks⟩ := herror fault hfault
    exact (hall path embedded' c' hlength hclass).not_blocks hblocks
  · obtain ⟨_,_,_,_,_,hblocks⟩ := herror fault hfault
    exact hblocks.code

/-- A leaf, which is a value. -/
def leaf : Class Value := ⟨.defined "Leaf" 0 [.builtin .valueObject, .builtin .object], none⟩

/-- A branch, which has a leaf. -/
def branch : Class Value := ⟨.defined "Branch" 1 [.builtin .valueObject, .builtin .object], none⟩

/-- Branches are declared, and leaves are not. -/
def branches : Except Error Registry :=
  ({} : Registry).registerProperty (.cls branch) (.str "leaf") [("type", .type (.cls leaf))]

/-- Branches compile as long as leaves are past the limit, and fail for their leaves with the next one. -/
theorem compile_reaches_leaf : ∃ r, branches = .ok r ∧ Sound r false branch ∧
    compile r (.ok Settings.defaults) (.cls branch) (some 1) 0 false = .error (.missing (.metadata "Leaf")) ∧
    ∃ path embedded c, path.length ≤ 1 ∧ classAt? r "_id" false branch path = some (embedded, c) ∧
      Blocks r embedded c (.missing (.metadata "Leaf")) := by
  let r : Registry := { declarations := [(branch, [("leaf", { type := some (.cls leaf) })])] }
  have hr : branches = .ok r := by with_unfolding_all rfl
  have hok : (compile r (.ok Settings.defaults) (.cls branch) (some 0) 0 false).isOk = true := by with_unfolding_all rfl
  have hfails : compile r (.ok Settings.defaults) (.cls branch) (some 1) 0 false = .error (.missing (.metadata "Leaf")) := by
    with_unfolding_all rfl
  have hlimit (n : Nat) : Settings.limit (.ok Settings.defaults) (some (n : Int)) = .ok n := rfl
  obtain ⟨hiff,_⟩ := compile_reaches (r := r) (hlimit 0) 0 false branch
  obtain ⟨_,hblames⟩ := compile_reaches (r := r) (hlimit 1) 0 false branch
  have hsound := hiff.mp (exists_ok_of_isOk hok) [] false branch (by decide) rfl
  obtain ⟨⟨path,embedded,c,hlength,hclass,hblocks⟩,_⟩ := hblames _ hfails
  exact ⟨r,hr,hsound,hfails,path,embedded,c,by omega,hclass,hblocks⟩

end Document

end Trischema
