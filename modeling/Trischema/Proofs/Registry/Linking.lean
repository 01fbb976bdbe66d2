import Trischema.Proofs.Compiling.Joining
import Trischema.Proofs.Registry.Ordering
import Trischema.Proofs.Value.Equality

/-!
Links, from the options that give them to the tables of a registry. Options are checked for their kinds and against each
other, but a direction or a cardinality that is no text is taken as it comes: a link is well formed just where its
options name both. What a registry has of links was declared by the calls that it accepted.
-/

namespace Trischema

/-- Whether an error blames a definition. -/
def Error.IsDefinition (e : Error) : Prop := ∃ fault site, e = .definition fault site

/-- Texts can be compared with each other. -/
theorem Value.order?_isSome_of_text? {v w : Value} {s t : String} (hv : v.text? = some s) (hw : w.text? = some t) :
    (v.order? w).isSome = true := by
  have hleaf : (v.orderLeaf? w).isSome = true := by
    unfold orderLeaf?
    rw [number?_of_text? hv,number?_of_text? hw,hv,hw]
    rfl
  cases v with
  | str s => exact hleaf
  | member m => exact hleaf
  | _ => cases hv

namespace Given

variable {names : List String} {es : List (Value × Value)} {fault : List Value → DefinitionFault} {site : Site} {e : Error}

/-- Whether a dictionary has a key that is no text. -/
def HasOtherKeys (es : List (Value × Value)) : Prop := ∃ entry ∈ es, entry.1.text? = none

/-- Unknown keys are blamed; only those that are not all texts may have no order. -/
theorem checkKeys_error (h : checkKeys names es fault site = .error e) :
    e.IsDefinition ∨ e = .failure .kind ∧ HasOtherKeys es := by
  rw [checkKeys] at h
  split at h
  · cases h
  rcases bind_eq_error.mp h with h | ⟨_,_,h⟩
  · rw [Value.sorted] at h
    split at h
    · cases h
    rename_i hunsorted
    refine .inr ⟨(Except.error.inj h).symm,?_⟩
    by_contra htexts
    have htext (key : Value) (hkey : key ∈ unknownKeys names es) : ∃ s, key.text? = some s := by
      obtain ⟨entry,hentry,rfl⟩ := List.mem_map.mp (List.mem_filter.mp hkey).1
      rw [← Option.ne_none_iff_exists']
      exact fun hnone => htexts ⟨entry,hentry,hnone⟩
    refine hunsorted (List.pairwise_of_forall_mem_list fun a ha b hb => ?_)
    obtain ⟨s,hs⟩ := htext a ha
    obtain ⟨t,ht⟩ := htext b hb
    exact Value.order?_isSome_of_text? hs ht
  · exact .inl ⟨_,_,(Except.error.inj h).symm⟩

end Given

namespace Relationship

variable {given : Given} {rel : Relationship Value}

/-- How many columns a cardinality takes. -/
def columnLimit : Option (Choice Cardinality Value) → Nat
  | none | some (.known .oneToMany) => 0
  | some (.known .manyToMany) => 2
  | some (.known _) | some (.other _) => 1

/-- What the options of a link are checked for. -/
structure Checked (rel : Relationship Value) : Prop where
  edgeType : rel.edgeType ≠ ""
  /-- a target that is neither a class nor a name -/
  target : ∀ v, rel.target = .resolver v → v.isCallable = true
  owned : rel.joinColumns ≠ [] ∨ rel.joinTable.truthy = true → rel.owner = true
  shaped : rel.joinTable.truthy = true → rel.cardinality = some (.known .manyToMany)
  columns : rel.joinColumns.length ≤ columnLimit rel.cardinality

/-- Whether direction and cardinality of a link are known ones, or there is no cardinality. -/
structure Chosen (rel : Relationship Value) : Prop where
  direction : rel.direction.isKnown = true
  cardinality : rel.cardinality.all Choice.isKnown = true

structure WellFormed (rel : Relationship Value) : Prop extends Checked rel, Chosen rel

/-- Whether options leave direction and cardinality out, name them, or hold the members of the sets themselves. -/
structure Names (given : Given) : Prop where
  direction : ∀ v, given.lookup "direction" = some v → v.text?.isSome = true ∨ v.direction?.isSome = true
  cardinality : ∀ v, given.lookup "cardinality" = some v →
    v = .null ∨ v.text?.isSome = true ∨ v.cardinality?.isSome = true

/-- Whether options have a cardinality that is neither left out nor named, and that no message has a word for. -/
def Wordless (given : Given) : Prop :=
  ∃ v, given.lookup "cardinality" = some v ∧ v.text? = none ∧ v.truthy = true ∧ v.attribute? "value" = none

section Reading

theorem isKnown_ofValue {β : Type} (member? : Value → Option β) (v : Value) :
    (Choice.ofValue member? v).isKnown = (member? v).isSome := by
  rw [Choice.ofValue]
  cases member? v <;> rfl

theorem directionOf_known {direction : Choice Direction Value} (h : directionOf given = .ok direction) :
    direction.isKnown = true ↔
      ∀ v, given.lookup "direction" = some v → v.text?.isSome = true ∨ v.direction?.isSome = true := by
  rw [directionOf] at h
  cases hgiven : given.lookup "direction" with
  | none =>
    rw [hgiven] at h
    cases h
    exact iff_of_true rfl nofun
  | some v =>
    simp only [hgiven] at h
    simp only [Option.some.injEq,forall_eq']
    cases htext : v.text? with
    | none =>
      rw [htext] at h
      cases h
      rw [isKnown_ofValue,Option.isSome_none,or_iff_right Bool.false_ne_true]
    | some s =>
      rw [htext] at h
      obtain ⟨d,_,rfl⟩ := map_eq_ok.mp (ofFault_eq_ok.mp h)
      exact iff_of_true rfl (.inl rfl)

theorem cardinalityOf_known {cardinality : Option (Choice Cardinality Value)} (h : cardinalityOf given = .ok cardinality) :
    cardinality.all Choice.isKnown = true ↔
      ∀ v, given.lookup "cardinality" = some v → v = .null ∨ v.text?.isSome = true ∨ v.cardinality?.isSome = true := by
  rw [cardinalityOf] at h
  split at h
  · rename_i hgiven
    cases h
    rw [hgiven]
    exact iff_of_true rfl nofun
  · rename_i hgiven
    cases h
    rw [hgiven]
    exact iff_of_true rfl (by simp)
  · rename_i v hnull hgiven
    rw [hgiven]
    simp only [Option.some.injEq,forall_eq']
    cases htext : v.text? with
    | none =>
      rw [htext] at h
      cases h
      rw [or_iff_right hnull,Option.isSome_none,or_iff_right Bool.false_ne_true,Option.all_some,isKnown_ofValue]
    | some s =>
      rw [htext] at h
      obtain ⟨c,_,rfl⟩ := map_eq_ok.mp (ofFault_eq_ok.mp h)
      exact iff_of_true rfl (.inr (.inl rfl))

theorem cardinalityOf_other {v : Value} (h : cardinalityOf given = .ok (some (.other v))) :
    given.lookup "cardinality" = some v ∧ v.text? = none := by
  rw [cardinalityOf] at h
  split at h
  · cases h
  · cases h
  · rename_i v' _ hgiven
    cases htext : v'.text? with
    | none =>
      rw [htext] at h
      have h := Option.some.inj (Except.ok.inj h)
      rw [Choice.ofValue] at h
      split at h
      · cases h
      · cases h
        exact ⟨hgiven,htext⟩
    | some s =>
      rw [htext] at h
      obtain ⟨c,_,h⟩ := map_eq_ok.mp (ofFault_eq_ok.mp h)
      cases h

end Reading

theorem ofValue?_callable {v w : Value} (h : Target.ofValue? v = some (.resolver w)) : w.isCallable = true := by
  rw [Target.ofValue?.eq_def] at h
  split at h
  · cases h
  · cases h
  · split at h
    · cases h
      assumption
    · cases h

theorem check_ok {edgeType : String} {v : Value} {target : Target Value} (h : Target.check edgeType v = .ok target) :
    edgeType ≠ "" ∧ ∀ w, target = .resolver w → w.isCallable = true := by
  rw [Target.check] at h
  split at h
  · cases h
  · rename_i hempty
    split at h
    · cases h
    · split at h
      · rename_i t htarget
        cases h
        refine ⟨fun hsame => hempty (by rw [hsame]; rfl),fun w hw => ?_⟩
        rw [hw] at htarget
        exact ofValue?_callable htarget
      · cases h

theorem columnLimit_of_allowance {cardinality : Option (Choice Cardinality Value)} {n : Nat}
    (hallowed : n ≠ 0 → (joinAllowance cardinality).2 = true) (hfew : n ≤ (joinAllowance cardinality).1) :
    n ≤ columnLimit cardinality := by
  match cardinality with
  | none | some (.known .oneToMany) =>
    by_contra hsome
    exact Bool.false_ne_true (hallowed fun hzero => hsome (by rw [hzero]; exact Nat.zero_le _))
  | some (.known .oneToOne) | some (.known .manyToOne) | some (.known .manyToMany) | some (.other _) => exact hfew

theorem build_chosen (h : build given = .ok rel) : directionOf given = .ok rel.direction ∧
    rel.edgeType ≠ "" ∧ ∀ w, rel.target = .resolver w → w.isCallable = true := by
  rw [build] at h
  split at h
  · obtain ⟨direction,hdirection,h⟩ := bind_eq_ok.mp h
    obtain ⟨cardinality,_,h⟩ := bind_eq_ok.mp h
    obtain ⟨columns,_,h⟩ := bind_eq_ok.mp h
    obtain ⟨_,_,h⟩ := bind_eq_ok.mp h
    -- the operations that cascade are read in the same way
    dsimp only at h
    split at h
    all_goals
      obtain ⟨cascade,_,h⟩ := bind_eq_ok.mp h
      obtain ⟨properties,_,h⟩ := bind_eq_ok.mp h
      obtain ⟨target,htarget,h⟩ := bind_eq_ok.mp h
      cases pure_eq_ok.mp h
      exact ⟨hdirection,check_ok (ofFault_eq_ok.mp htarget)⟩
  · cases h

/-- A link that is built is checked, and it is well formed just where its options name direction and cardinality. -/
theorem build_checked (h : build given = .ok rel) : rel.Checked ∧ (rel.WellFormed ↔ Names given) := by
  have hdeclared := build_declared h
  obtain ⟨hdirection,hedge,htarget⟩ := build_chosen h
  have hchecked : rel.Checked := {
    edgeType := hedge
    target := htarget
    owned := hdeclared.owned
    shaped := hdeclared.shaped
    columns := columnLimit_of_allowance (fun hsome => hdeclared.allowed fun hnone => hsome (by rw [hnone]; rfl))
      hdeclared.few }
  refine ⟨hchecked,fun hformed => ?_,fun hnames => ⟨hchecked,?_⟩⟩
  · exact ⟨(directionOf_known hdirection).mp hformed.direction,
      (cardinalityOf_known hdeclared.cardinality).mp hformed.cardinality⟩
  · exact ⟨(directionOf_known hdirection).mpr hnames.direction,
      (cardinalityOf_known hdeclared.cardinality).mpr hnames.cardinality⟩

section Refusing

variable {α : Type} {e : Error}

theorem ofFault_ne_failure (x : Except DefinitionFault α) : Building.ofFault x ≠ .error (.inr e) := by
  cases x <;> exact nofun

theorem directionOf_ne_failure : directionOf given ≠ .error (.inr e) := by
  rw [directionOf]
  split
  · exact nofun
  · split
    · exact ofFault_ne_failure _
    · exact nofun

theorem cardinalityOf_ne_failure : cardinalityOf given ≠ .error (.inr e) := by
  rw [cardinalityOf]
  split
  · exact nofun
  · exact nofun
  · split
    · exact ofFault_ne_failure _
    · exact nofun

/-- The check of a join fails otherwise than by a fault only for the word of a cardinality. -/
theorem checkJoin_failure {cardinality : Option (Choice Cardinality Value)} {owner : Bool} {columns : List String}
    {table : Value} (h : checkJoin cardinality owner columns table = .error (.inr e)) :
    shapeText cardinality = .error e := by
  simp only [checkJoin,bind,Except.bind,Building.fault] at h
  split at h
  · cases h
  split at h
  · cases h
  split at h
  · split at h
    · cases hshape : shapeText cardinality with
      | error e' =>
        rw [hshape] at h
        cases h
        rfl
      | ok shape =>
        rw [hshape] at h
        cases h
    · cases h
  · cases h

theorem shapeText_failure {cardinality : Option (Choice Cardinality Value)} (h : shapeText cardinality = .error e) :
    ∃ v, cardinality = some (.other v) ∧ v.truthy = true ∧ v.attribute? "value" = none ∧ e = .failure .attribute := by
  match cardinality with
  | some (.other v) =>
    rw [shapeText] at h
    split at h
    · rename_i htruthy
      have h := map_eq_error.mp h
      rw [Value.getAttribute] at h
      split at h
      · cases h
      · rename_i hnone
        exact ⟨v,rfl,htruthy,hnone,(Except.error.inj h).symm⟩
    · cases h

theorem build_failure (h : build given = .error (.inr e)) : Wordless given ∧ e = .failure .attribute := by
  rw [build] at h
  split at h
  · rcases bind_eq_error.mp h with h | ⟨direction,_,h⟩
    · exact absurd h directionOf_ne_failure
    rcases bind_eq_error.mp h with h | ⟨cardinality,hcardinality,h⟩
    · exact absurd h cardinalityOf_ne_failure
    rcases bind_eq_error.mp h with h | ⟨columns,_,h⟩
    · exact absurd h (ofFault_ne_failure _)
    rcases bind_eq_error.mp h with h | ⟨_,_,h⟩
    · obtain ⟨v,rfl,htruthy,hnone,rfl⟩ := shapeText_failure (checkJoin_failure h)
      obtain ⟨hgiven,htext⟩ := cardinalityOf_other hcardinality
      exact ⟨⟨v,hgiven,htext,htruthy,hnone⟩,rfl⟩
    -- what is read after the join has faults alone
    · exfalso
      dsimp only at h
      split at h
      all_goals
        rcases bind_eq_error.mp h with h | ⟨cascade,_,h⟩
        · first | cases h | exact ofFault_ne_failure _ h
        rcases bind_eq_error.mp h with h | ⟨properties,_,h⟩
        · exact ofFault_ne_failure _ h
        rcases bind_eq_error.mp h with h | ⟨target,_,h⟩
        · exact ofFault_ne_failure _ h
        · cases h
  · cases h

/-- Options that make no link are blamed, unless they have a cardinality that cannot be told of, or keys that cannot be
put in order. -/
theorem ofEntries_error {cls key : String} {es : List (Value × Value)} (h : ofEntries cls key es = .error e) :
    e.IsDefinition ∨ e = .failure .attribute ∧ Wordless (.ofEntries es) ∨ e = .failure .kind ∧ Given.HasOtherKeys es := by
  rcases bind_eq_error.mp h with h | ⟨_,_,h⟩
  · exact (Given.checkKeys_error h).imp id .inr
  · split at h
    · cases h
    · exact .inl ⟨_,_,(Except.error.inj h).symm⟩
    · rename_i e' hbuilt
      cases h
      obtain ⟨hwordless,he⟩ := build_failure hbuilt
      exact .inr (.inl ⟨he,hwordless⟩)

end Refusing

theorem ofEntries_checked {cls key : String} {es : List (Value × Value)} (h : ofEntries cls key es = .ok rel) :
    rel.Checked ∧ (rel.WellFormed ↔ Names (.ofEntries es)) :=
  build_checked (ofEntries_build h)

end Relationship

namespace OptionTable

variable {Q : Relationship Value → Prop} {table : OptionTable}

/-- Whether the links among options have a property. -/
def LinksHold (Q : Relationship Value → Prop) (table : OptionTable) : Prop :=
  ∀ entry ∈ table, ∀ rel, entry.2.relationship = some rel → Q rel

theorem LinksHold.upsert {combine : Options → Options → Options} {key : String} {o : Options} (h : table.LinksHold Q)
    (ho : ∀ rel, o.relationship = some rel → Q rel)
    (hcombine : ∀ old, (combine o old).relationship = (o.relationship <|> old.relationship)) :
    (table.upsert combine key o).LinksHold Q := by
  -- an entry has the newer link, or the older one where the newer options have none
  have hcombined (old : Options) (hold : ∀ rel, old.relationship = some rel → Q rel) (rel : Relationship Value)
      (hrel : (combine o old).relationship = some rel) : Q rel := by
    rw [hcombine] at hrel
    cases hnew : o.relationship with
    | some rel' =>
      rw [hnew] at hrel
      cases hrel
      exact ho _ hnew
    | none =>
      rw [hnew] at hrel
      exact hold rel hrel
  induction table with
  | nil =>
    rw [OptionTable.upsert,LinksHold,List.forall_mem_singleton]
    exact hcombined {} fun rel hrel => by cases hrel
  | cons first rest ih =>
    obtain ⟨hfirst,hrest⟩ := List.forall_mem_cons.mp h
    rw [OptionTable.upsert]
    split
    · exact List.forall_mem_cons.mpr ⟨hcombined first.2 hfirst,hrest⟩
    · exact List.forall_mem_cons.mpr ⟨hfirst,ih hrest⟩

theorem LinksHold.foldl (combine : Options → Options → Options) {entries : OptionTable} (h : table.LinksHold Q)
    (hentries : LinksHold Q entries)
    (hcombine : ∀ o old, (combine o old).relationship = (o.relationship <|> old.relationship)) :
    LinksHold Q (entries.foldl (fun t (k, o) => t.upsert combine k o) table) :=
  List.foldlRecOn _ _ h fun _ ht entry hentry => LinksHold.upsert ht (hentries entry hentry) (hcombine entry.2)

theorem LinksHold.withIdentifier (h : table.LinksHold Q) (embedded : Bool) :
    LinksHold Q (Registry.withIdentifier table embedded) := by
  unfold Registry.withIdentifier
  split
  · refine List.forall_mem_cons.mpr ⟨fun rel hrel => ?_,fun entry hentry => h entry (List.mem_filter.mp hentry).1⟩
    cases hlookup : table.lookup "id" with
    | none =>
      rw [hlookup] at hrel
      cases hrel
    | some o =>
      rw [hlookup] at hrel
      exact h _ (mem_of_lookup hlookup) rel hrel
  · exact h

end OptionTable

theorem ClassName.domainProperties_links {Q : Relationship Value → Prop} (name : ClassName) :
    OptionTable.LinksHold Q name.domainProperties := by
  cases name with
  | defined => simp [OptionTable.LinksHold,domainProperties]
  | builtin b => cases b <;> simp [OptionTable.LinksHold,domainProperties,Builtin.domainProperties]

namespace Registry

open Relationship

variable {Q : Relationship Value → Prop} {r r' : Registry} {c : Class Value} {d : Descriptor} {cls : TypeExpr Value}
  {key : Value} {given : Given} {es : List (Value × Value)} {e : Error}

/-- Whether the links that classes declare have a property. -/
def LinksHold (Q : Relationship Value → Prop) (r : Registry) : Prop := ∀ name, OptionTable.LinksHold Q (r.declared name)

theorem LinksHold.folded (h : r.LinksHold Q) (c : Class Value) : OptionTable.LinksHold Q (r.folded c) := by
  refine List.foldlRecOn _ _ (List.forall_mem_nil _) fun table htable name _ => ?_
  rw [contribute]
  split
  · exact htable
  · have hinjected := htable.foldl .overlay name.domainProperties_links fun _ _ => rfl
    exact hinjected.foldl .declaredOver (h name) fun _ _ => rfl

/-- The links of a class are among those that its lineage declares. -/
theorem LinksHold.merged (h : r.LinksHold Q) (hd : r.merge c = .ok d) :
    ∀ p ∈ d.properties, ∀ rel, p.relationship = some rel → Q rel := by
  intro p hp rel hrel
  obtain ⟨table,merged⟩ := merge_cases hd
  obtain ⟨o,hentry,hcarries,_⟩ := merged.carries hp
  have htable : OptionTable.LinksHold Q table := fun entry hmem => h.folded c entry (merged.settled.sublist.mem hmem)
  rw [hcarries.relationship] at hrel
  exact htable.withIdentifier _ _ hentry rel hrel

theorem registerEntries_ok (h : r.registerEntries cls key es = .ok r') : ∃ c k o, Reads cls key es c k o ∧
    ∀ name, r'.declared name = if c.name = name then (r.declared name).upsert .overlay k o else r.declared name := by
  rw [registerEntries_eq] at h
  obtain ⟨⟨c,k,o⟩,hread,h⟩ := bind_eq_ok.mp h
  obtain ⟨_,_,h⟩ := bind_eq_ok.mp h
  cases h
  exact ⟨c,k,o,ofEntries_ok hread,declared_fileUnder r c _⟩

theorem registerEntries_stores {link : Value} (hlink : (Given.ofEntries es).lookup "relationship" = some link)
    (h : r.registerEntries cls key es = .ok r') : ∃ c k o rel, cls = .cls c ∧ key.text? = some k ∧
      (r'.declared c.name).lookup k = some o ∧ o.relationship = some rel ∧
      (link = .relationship rel ∨ ∃ es, link = .mapping es ∧ ofEntries c.name.text k es = .ok rel) := by
  obtain ⟨c,k,o,⟨hcls,hkey,hread⟩,hdeclared⟩ := registerEntries_ok h
  obtain ⟨rel,hrel,hsource⟩ := (Options.readRelationship_eq_ok hlink).mp hread
  refine ⟨c,k,o.overlay (((r.declared c.name).lookup k).getD {}),rel,hcls,hkey,?_,?_,hsource⟩
  · rw [hdeclared,if_pos rfl,OptionTable.lookup_upsert,if_pos rfl]
  · rw [Options.overlay,hrel]
    rfl

theorem LinksHold.register (h : r.LinksHold Q) (hlink : ∀ owner k site rel,
    Options.readRelationship owner k (.ofEntries es) site = .ok (some rel) → Q rel)
    (hregister : r.registerEntries cls key es = .ok r') : r'.LinksHold Q := by
  obtain ⟨c,k,o,⟨_,_,hread⟩,hdeclared⟩ := registerEntries_ok hregister
  intro name
  rw [hdeclared]
  split
  · refine (h name).upsert (fun rel hrel => ?_) fun _ => rfl
    rw [hrel] at hread
    exact hlink _ _ _ rel hread
  · exact h name

theorem readType_error {cls key : String} {site : Site} (h : Options.readType cls key given site = .error e) :
    e.IsDefinition := by
  rw [Options.readType] at h
  split at h
  · cases h
  · dsimp only at h
    split at h
    · exact ⟨_,_,(Except.error.inj h).symm⟩
    · split at h
      · exact ⟨_,_,(Except.error.inj h).symm⟩
      · cases h

theorem readFlags_error {cls key : String} {site : Site} {o : Options} {flags : List FlagOption}
    (h : Options.readFlags cls key given site o flags = .error e) : e.IsDefinition := by
  induction flags generalizing o with
  | nil => cases h
  | cons flag flags ih =>
    rw [Options.readFlags] at h
    split at h
    · exact ih h
    · exact ih h
    · exact ⟨_,_,(Except.error.inj h).symm⟩

theorem readEnum_error {cls key : String} {site : Site} (h : Options.readEnum cls key given site = .error e) :
    e.IsDefinition := by
  rw [Options.readEnum] at h
  split at h
  · cases h
  · cases h
  · cases h
  · exact ⟨_,_,(Except.error.inj h).symm⟩

/-- A declaration that cannot be read is blamed, unless its keys have no order, or the options of its link fail
otherwise. -/
theorem ofEntries_error (h : Options.ofEntries cls key es = .error e) : e.IsDefinition ∨
    e = .failure .kind ∧ Given.HasOtherKeys es ∨
    ∃ cls key es', (Given.ofEntries es).lookup "relationship" = some (.mapping es') ∧
      Relationship.ofEntries cls key es' = .error e := by
  cases cls with
  | cls c =>
    simp only [Options.ofEntries] at h
    split at h
    · split at h
      · exact .inl ⟨_,_,(Except.error.inj h).symm⟩
      rw [ok_bind] at h
      rcases bind_eq_error.mp h with h | ⟨_,_,h⟩
      · exact (Given.checkKeys_error h).imp id .inl
      rcases bind_eq_error.mp h with h | ⟨_,_,h⟩
      · exact .inl (readType_error h)
      rcases bind_eq_error.mp h with h | ⟨_,_,h⟩
      · exact .inl (readFlags_error h)
      rcases bind_eq_error.mp h with h | ⟨_,_,h⟩
      · exact .inl (readEnum_error h)
      rcases bind_eq_error.mp h with h | ⟨_,_,h⟩
      · rw [Options.readRelationship] at h
        split at h
        · cases h
        · cases h
        · rename_i es' hlink
          exact .inr (.inr ⟨_,_,es',hlink,map_eq_error.mp h⟩)
        · exact .inl ⟨_,_,(Except.error.inj h).symm⟩
      · cases h
    · exact .inl ⟨_,_,(Except.error.inj h).symm⟩
  | _ => exact .inl ⟨_,_,(Except.error.inj h).symm⟩

theorem registerEntries_error (hopen : r.frozen = false) (h : r.registerEntries cls key es = .error e) :
    e.IsDefinition ∨ e = .failure .kind ∧ Given.HasOtherKeys es ∨
    ∃ cls key es', (Given.ofEntries es).lookup "relationship" = some (.mapping es') ∧
      Relationship.ofEntries cls key es' = .error e := by
  rw [registerEntries_eq] at h
  rcases bind_eq_error.mp h with h | ⟨⟨c,k,o⟩,_,h⟩
  · exact ofEntries_error h
  · rcases bind_eq_error.mp h with h | ⟨_,_,h⟩
    · rw [checkDeclared,checkMutable_eq_ok.mpr hopen,ok_bind] at h
      split at h
      · split at h
        · exact .inl ⟨_,_,(Except.error.inj h).symm⟩
        · cases h
      · cases h
    · cases h

end Registry

namespace RegistryCall

open Relationship Registry

/-- The options of a link that a call gives for a key of a class: its own options, or those that the option for the link
holds. -/
inductive Gives : RegistryCall → TypeExpr Value → Value → List (Value × Value) → Prop
  | link {cls : TypeExpr Value} {key options : Value} {named : Given} {es : List (Value × Value)}
      (hbare : ∀ rel, options ≠ .relationship rel) (hgiven : Options.overlaid options named = .ok es) :
      Gives (.relationship cls key options named) cls key es
  | option {cls : TypeExpr Value} {key options : Value} {named : Given} {outer es : List (Value × Value)}
      (hgiven : Options.overlaid options named = .ok outer)
      (hlink : (Given.ofEntries outer).lookup "relationship" = some (.mapping es)) :
      Gives (.property cls key options named) cls key es

/-- The link that a call gives as it is. -/
inductive Hands : RegistryCall → Relationship Value → Prop
  | link {cls : TypeExpr Value} {key : Value} {rel : Relationship Value} {named : Given} :
      Hands (.relationship cls key (.relationship rel) named) rel
  | option {cls : TypeExpr Value} {key options : Value} {named : Given} {es : List (Value × Value)}
      {rel : Relationship Value} (hgiven : Options.overlaid options named = .ok es)
      (hlink : (Given.ofEntries es).lookup "relationship" = some (.relationship rel)) :
      Hands (.property cls key options named) rel

/-- Whether a call gives an option under a key that is no text, among its own or those of a link. -/
inductive HasOtherKeys : RegistryCall → Prop
  | own {cls : TypeExpr Value} {key options : Value} {named : Given} {es : List (Value × Value)}
      (hgiven : Options.overlaid options named = .ok es) (hother : Given.HasOtherKeys es) :
      HasOtherKeys (.property cls key options named)
  | link {call : RegistryCall} {cls : TypeExpr Value} {key : Value} {es : List (Value × Value)}
      (hgives : call.Gives cls key es) (hother : Given.HasOtherKeys es) : HasOtherKeys call

/-- Whether a call declares a link, as it is or by its options. -/
def Declares (call : RegistryCall) (rel : Relationship Value) : Prop :=
  call.Hands rel ∨ ∃ cls key es owner k, call.Gives cls key es ∧ ofEntries owner k es = .ok rel

variable {Q : Relationship Value → Prop} {call : RegistryCall} {r r' : Registry} {cls : TypeExpr Value}
  {key options : Value} {named : Given} {es : List (Value × Value)} {rel : Relationship Value} {e : Error}

theorem builtLink_cases (h : Options.builtLink cls key options named = .ok rel) : options = .relationship rel ∨
    (∀ rel, options ≠ .relationship rel) ∧ ∃ es owner k, Options.overlaid options named = .ok es ∧
      ofEntries owner k es = .ok rel := by
  by_cases hready : ∃ rel, options = .relationship rel
  · obtain ⟨rel,rfl⟩ := hready
    cases h
    exact .inl rfl
  · have hbare (rel : Relationship Value) (hsame : options = .relationship rel) : False := hready ⟨rel,hsame⟩
    rw [Options.builtLink] at h
    · obtain ⟨es,hgiven,hbuilt⟩ := bind_eq_ok.mp h
      exact .inr ⟨hbare,es,_,_,hgiven,hbuilt⟩
    · exact hbare

theorem readRelationship_cases {owner k : String} {site : Site}
    {given : Given} (h : Options.readRelationship owner k given site = .ok (some rel)) :
    given.lookup "relationship" = some (.relationship rel) ∨
      ∃ es, given.lookup "relationship" = some (.mapping es) ∧ ofEntries owner k es = .ok rel := by
  cases hlink : given.lookup "relationship" with
  | none =>
    rw [Options.readRelationship,hlink] at h
    cases h
  | some link =>
    obtain ⟨rel',heq,hlink⟩ := (Options.readRelationship_eq_ok hlink).mp h
    cases heq
    rcases hlink with rfl | ⟨es,rfl,hbuilt⟩
    · exact .inl rfl
    · exact .inr ⟨es,rfl,hbuilt⟩

/-- An accepted call leaves the links that were declared, but for the one that it declares. -/
theorem outcome_links (h : r.LinksHold Q) (hcall : ∀ rel, call.Declares rel → Q rel) (hout : call.outcome r = .ok r') :
    r'.LinksHold Q := by
  cases call with
  | entity cls name embedded together =>
    obtain ⟨c,change,_,_,rfl⟩ := registerEntity_ok hout
    exact h
  | property cls key options named =>
    obtain ⟨es,hgiven,hout⟩ := bind_eq_ok.mp hout
    refine h.register (fun owner k site rel hread => hcall rel ?_) hout
    rcases readRelationship_cases hread with hlink | ⟨es,hlink,hbuilt⟩
    · exact .inl (.option hgiven hlink)
    · exact .inr ⟨_,_,_,owner,k,.option hgiven hlink,hbuilt⟩
  | relationship cls key options named =>
    obtain ⟨rel,hlink,hout⟩ := bind_eq_ok.mp hout
    -- the property that is registered then has the finished link as its only option, so no options are read again
    refine h.register (fun _ _ _ rel' hread => ?_) hout
    obtain hsame | ⟨es,hsame,_⟩ := readRelationship_cases hread
    · cases hsame
      refine hcall rel ?_
      rcases builtLink_cases hlink with rfl | ⟨hbare,es,owner,k,hgiven,hbuilt⟩
      · exact .inl .link
      · exact .inr ⟨_,_,_,owner,k,.link hbare hgiven,hbuilt⟩
    · cases hsame

/-- What an accepted call leaves of the options of a link that it gives. -/
theorem Gives.accepted (hgives : call.Gives cls key es) (hout : call.outcome r = .ok r') :
    ∃ c k o rel, cls = .cls c ∧ key.text? = some k ∧ (r'.declared c.name).lookup k = some o ∧
      o.relationship = some rel ∧ rel.Checked ∧ (rel.WellFormed ↔ Names (.ofEntries es)) := by
  cases hgives with
  | @link _ _ options named _ hbare hgiven =>
    obtain ⟨rel,hlink,hout⟩ := bind_eq_ok.mp hout
    obtain ⟨c,k,o,rel',hcls,hkey,hlookup,hrel,hsame | ⟨_,hsame,_⟩⟩ := registerEntries_stores rfl hout
    · cases hsame
      rcases builtLink_cases hlink with rfl | ⟨_,es',owner,k',hgiven',hbuilt⟩
      · exact absurd rfl (hbare rel)
      · cases hgiven.symm.trans hgiven'
        exact ⟨c,k,o,rel,hcls,hkey,hlookup,hrel,ofEntries_checked hbuilt⟩
    · cases hsame
  | @option _ _ options named outer es hgiven hlink =>
    obtain ⟨outer',hgiven',hout⟩ := bind_eq_ok.mp hout
    cases hgiven.symm.trans hgiven'
    obtain ⟨c,k,o,rel,hcls,hkey,hlookup,hrel,hsame | ⟨_,hsame,hbuilt⟩⟩ := registerEntries_stores hlink hout
    · cases hsame
    · cases hsame
      exact ⟨c,k,o,rel,hcls,hkey,hlookup,hrel,ofEntries_checked hbuilt⟩

theorem Gives.refused (hgives : call.Gives cls key es) (hopen : r.frozen = false) (hout : call.outcome r = .error e) :
    e.IsDefinition ∨ e = .failure .attribute ∧ Wordless (.ofEntries es) ∨ e = .failure .kind ∧ call.HasOtherKeys := by
  have hbuilding {owner k : String} (h : Relationship.ofEntries owner k es = .error e) :
      e.IsDefinition ∨ e = .failure .attribute ∧ Wordless (.ofEntries es) ∨ e = .failure .kind ∧ call.HasOtherKeys :=
    (Relationship.ofEntries_error h).imp id (.imp id (.imp id (.link hgives)))
  cases hgives with
  | @link _ _ options named _ hbare hgiven =>
    rcases bind_eq_error.mp hout with hlink | ⟨rel,_,hout⟩
    · rw [Options.builtLink,hgiven,ok_bind] at hlink
      · exact hbuilding hlink
      · exact hbare
    · rcases registerEntries_error hopen hout with hblamed | ⟨_,_,hentry,hother⟩ | ⟨_,_,es,hsame,_⟩
      · exact .inl hblamed
      · cases List.mem_singleton.mp hentry
        cases hother
      · cases hsame
  | @option _ _ options named outer es hgiven hlink =>
    rw [outcome,hgiven,ok_bind] at hout
    rcases registerEntries_error hopen hout with hblamed | ⟨hkind,hother⟩ | ⟨_,_,es',hsame,hfails⟩
    · exact .inl hblamed
    · exact .inr (.inr ⟨hkind,.own hgiven hother⟩)
    · cases hlink.symm.trans hsame
      exact hbuilding hfails

theorem each_links {s : CachedRegistry} (h : s.registry.LinksHold Q) (more : List RegistryCall)
    (hmore : ∀ call ∈ accepted more s, ∀ rel, call.Declares rel → Q rel) :
    ((each more).run s).2.registry.LinksHold Q := by
  induction more generalizing s with
  | nil => exact h
  | cons call rest ih =>
    rw [accepted,run_make,Serving.run_change] at hmore
    rw [each_cons,run_make,Serving.run_change]
    cases hout : call.outcome s.registry with
    | error e => exact h
    | ok r =>
      rw [hout] at hmore
      obtain ⟨hcall,hrest⟩ := List.forall_mem_cons.mp hmore
      exact ih (s := { s with registry := r }) (outcome_links h hcall hout) hrest

end RegistryCall

namespace Turn

open Registry

variable {Q : Relationship Value → Prop} {s : CachedRegistry}

theorem after_links (hcoherent : s.Coherent) (h : s.registry.LinksHold Q) (turn : Turn)
    (hturn : ∀ call ∈ turn.accepted s, ∀ rel, call.Declares rel → Q rel) : (turn.after s).registry.LinksHold Q := by
  cases turn with
  | together more => exact RegistryCall.each_links h more hturn
  | demand q =>
    rw [after]
    cases hregisters : q.registers with
    | true =>
      rw [Demand.after,Demand.serve_calls hregisters]
      exact RegistryCall.each_links h q.calls hturn
    | false =>
      obtain ⟨fingerprint,hsame⟩ := Demand.after_unregistered hregisters hcoherent
      rw [hsame]
      exact h

/-- The links of a registry have what the links have that accepted calls declared. -/
theorem run_links (hcoherent : s.Coherent) (h : s.registry.LinksHold Q) (turns : List Turn)
    (hturns : ∀ call ∈ history s turns, ∀ rel, call.Declares rel → Q rel) : (run s turns).registry.LinksHold Q := by
  induction turns generalizing s with
  | nil => exact h
  | cons turn rest ih =>
    rw [history,List.forall_mem_append] at hturns
    exact ih (turn.after_coherent hcoherent) (after_links hcoherent h turn hturns.1) hturns.2

theorem run_coherent (hcoherent : s.Coherent) (turns : List Turn) : (run s turns).Coherent := by
  induction turns generalizing s with
  | nil => exact hcoherent
  | cons turn rest ih => exact ih (turn.after_coherent hcoherent)

end Turn

end Trischema
