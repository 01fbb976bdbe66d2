import Trischema.Proofs.Registry.Freezing

/-!
The tables of a registry. A registration concerns the class that it is made for: it goes by what stands under the
name of that class, changes nothing else, and declares keys after those that were declared before.
-/

namespace Trischema

section Filing

variable {β : Type} {table : List (Class Value × β)} {c : Class Value} {new : β} {change : β → β}

/-- The class that is filed under a name, with what is filed. -/
def filing? (table : List (Class Value × β)) (name : ClassName) : Option (Class Value × β) :=
  table.find? fun entry => entry.1.name == name

theorem filed?_eq (table : List (Class Value × β)) (name : ClassName) :
    filed? table name = (filing? table name).map (·.2) := rfl

theorem filing?_fileUnder (name : ClassName) :
    filing? (fileUnder table c new change) name =
      if c.name = name then
        some ((filing? table name).elim (c, change new) fun entry => (entry.1, change entry.2))
      else filing? table name := by
  induction table with
  | nil =>
    by_cases h : c.name = name
    · simp [filing?,fileUnder,h]
    · simp [filing?,fileUnder,h]
  | cons entry rest ih =>
    obtain ⟨d,b⟩ := entry
    rw [fileUnder]
    by_cases hd : d.name = c.name
    · rw [if_pos hd]
      by_cases h : c.name = name
      · simp [filing?,hd,h]
      · have hname : (d.name == name) = false := by simpa [hd] using h
        simp [filing?,hname,h]
    · rw [if_neg hd]
      unfold filing? at ih ⊢
      by_cases hname : d.name = name
      · have h : c.name ≠ name := fun h => hd (hname.trans h.symm)
        simp [hname,h]
      · have hname : (d.name == name) = false := by simpa using hname
        simp only [List.find?_cons,hname,ih]

theorem mem_fileUnder {entry : Class Value × β} (h : entry ∈ fileUnder table c new change) :
    entry ∈ table ∨ entry.1.name = c.name ∧ ∃ b, (b = new ∨ ∃ old ∈ table, b = old.2) ∧ entry.2 = change b := by
  induction table with
  | nil =>
    rw [fileUnder,List.mem_singleton] at h
    subst h
    exact .inr ⟨rfl,new,.inl rfl,rfl⟩
  | cons first rest ih =>
    obtain ⟨d,b⟩ := first
    rw [fileUnder] at h
    split at h
    · rename_i hname
      rcases List.mem_cons.mp h with rfl | h
      · exact .inr ⟨hname,b,.inr ⟨_,List.mem_cons_self,rfl⟩,rfl⟩
      · exact .inl (List.mem_cons_of_mem _ h)
    · rcases List.mem_cons.mp h with rfl | h
      · exact .inl List.mem_cons_self
      · rcases ih h with h | ⟨hname,b',hb,hentry⟩
        · exact .inl (List.mem_cons_of_mem _ h)
        · exact .inr ⟨hname,b',hb.imp id fun ⟨old,hold,heq⟩ => ⟨old,List.mem_cons_of_mem _ hold,heq⟩,hentry⟩

theorem fileUnder_names_nodup (h : (table.map (·.1.name)).Nodup) :
    ((fileUnder table c new change).map (·.1.name)).Nodup := by
  induction table with
  | nil => simp [fileUnder]
  | cons first rest ih =>
    obtain ⟨d,b⟩ := first
    obtain ⟨hfirst,hrest⟩ := List.nodup_cons.mp h
    rw [fileUnder]
    split
    · exact List.nodup_cons.mpr ⟨hfirst,hrest⟩
    · rename_i hname
      refine List.nodup_cons.mpr ⟨fun hmem => ?_,ih hrest⟩
      obtain ⟨entry,hentry,heq⟩ := List.mem_map.mp hmem
      rcases mem_fileUnder hentry with hold | ⟨hsame,_⟩
      · exact hfirst (List.mem_map.mpr ⟨entry,hold,heq⟩)
      · exact hname (heq.symm.trans hsame)

theorem filing?_mem (h : (table.map (·.1.name)).Nodup) {entry : Class Value × β} :
    filing? table entry.1.name = some entry ↔ entry ∈ table := by
  constructor
  · intro hfound
    exact List.mem_of_find?_eq_some hfound
  · intro hentry
    induction table with
    | nil => cases hentry
    | cons first rest ih =>
      obtain ⟨hfirst,hrest⟩ := List.nodup_cons.mp h
      rcases List.mem_cons.mp hentry with rfl | hentry
      · simp [filing?]
      · have hne : first.1.name ≠ entry.1.name := fun heq => hfirst (List.mem_map.mpr ⟨entry,hentry,heq.symm⟩)
        rw [filing?,List.find?_cons_of_neg (by simpa using hne)]
        exact ih hrest hentry

/-- Tables in which the same is filed under every name differ in their order alone. -/
theorem perm_of_filing? {table' : List (Class Value × β)} (h : (table.map (·.1.name)).Nodup)
    (h' : (table'.map (·.1.name)).Nodup) (hsame : ∀ name, filing? table name = filing? table' name) :
    table.Perm table' := by
  refine (List.perm_ext_iff_of_nodup h.of_map h'.of_map).mpr fun entry => ?_
  rw [← filing?_mem h,← filing?_mem h',hsame]

end Filing

namespace OptionTable

/-- Combining options under a key leaves the places of all keys; a new key goes last. -/
theorem upsert_keys (combine : Options → Options → Options) (table : OptionTable) (key : String) (o : Options) :
    (table.upsert combine key o).map (·.1) =
      table.map (·.1) ++ if key ∈ table.map (·.1) then [] else [key] := by
  induction table with
  | nil => rfl
  | cons entry rest ih =>
    obtain ⟨k,old⟩ := entry
    rw [upsert]
    by_cases h : k = key
    · simp [h]
    · have hne : key ≠ k := Ne.symm h
      rw [if_neg h,List.map_cons,List.map_cons,ih,List.cons_append]
      simp only [List.mem_cons,hne,false_or]

end OptionTable

namespace Registry

variable {r r' : Registry} {name : ClassName}

/-- What stands under a name in the tables of a registry. -/
structure Holding where
  marked : Option (Class Value × Registration)
  declared : Option (Class Value × OptionTable)

def under (r : Registry) (name : ClassName) : Holding := ⟨filing? r.entities name, filing? r.declarations name⟩

/-- What is declared for a class, and nothing where no class is filed. -/
def Holding.table (held : Holding) : OptionTable := (held.declared.map (·.2)).getD []

theorem declared_eq (r : Registry) (name : ClassName) : r.declared name = (r.under name).table := rfl

theorem declared_fileUnder (r : Registry) (c : Class Value) (change : OptionTable → OptionTable) (name : ClassName) :
    declared { r with declarations := fileUnder r.declarations c [] change } name =
      if c.name = name then change (r.declared name) else r.declared name := by
  rw [declared,declared,filed?_eq,filed?_eq,filing?_fileUnder]
  split
  · cases filing? r.declarations name <;> rfl
  · rfl

/-- What holds of the tables of every registry: each class is filed once, and declares a key once. -/
structure Tidy (r : Registry) : Prop where
  marked : (r.entities.map (·.1.name)).Nodup
  declared : (r.declarations.map (·.1.name)).Nodup
  keys : ∀ entry ∈ r.declarations, (entry.2.map (·.1)).Nodup

theorem tidy_empty : Tidy {} := ⟨List.nodup_nil,List.nodup_nil,fun _ h => nomatch h⟩

theorem Tidy.declared_keys (h : r.Tidy) (name : ClassName) : ((r.declared name).map (·.1)).Nodup := by
  rw [declared_eq,Holding.table]
  cases hfound : (r.under name).declared with
  | none => exact List.nodup_nil
  | some entry => exact h.keys entry (List.mem_of_find?_eq_some hfound)

/-- What a registration does to a registry, and the error that it may end with. -/
abbrev Step := Registry → Registry × Option Error

namespace Step

/-- A change that is made as a whole or not at all. -/
def whole (f : Registry → Except Error Registry) : Step := fun r =>
  match f r with
  | .ok r' => (r', none)
  | .error e => (r, some e)

/-- One step, and another one if the first did not fail. -/
def andThen (f g : Step) : Step := fun r =>
  match f r with
  | (r', none) => g r'
  | (r', some e) => (r', some e)

/-- Whether a step is made for the class of a name, or for none, and declares some of the given keys for it. -/
structure Concerns (target : Option ClassName) (keys : List String) (f : Step) : Prop where
  fingerprint : ∀ r, (f r).1.fingerprint = r.fingerprint
  tidy : ∀ r : Registry, r.Tidy → (f r).1.Tidy
  /-- what stands under other names stays -/
  others : ∀ r name, some name ≠ target → (f r).1.under name = r.under name
  /-- it goes by what stands under the name of its class, and by whether the registry is frozen -/
  same : ∀ r r' : Registry, r.fingerprint = r'.fingerprint → (∀ name, some name = target → r.under name = r'.under name) →
    (f r).2 = (f r').2 ∧ ∀ name, some name = target → (f r).1.under name = (f r').1.under name
  /-- keys that are declared keep their places -/
  declares : ∀ r name, ∃ more ⊆ keys, ((f r).1.declared name).map (·.1) = (r.declared name).map (·.1) ++ more

variable {f g : Step} {target : Option ClassName} {keys more : List String}

/-- A step that leaves the registry as it is, whether it fails or not. -/
theorem concerns_still (e : Option Error) : Concerns target keys fun r => (r, e) where
  fingerprint _ := rfl
  tidy _ h := h
  others _ _ _ := rfl
  same _ _ _ h := ⟨rfl,h⟩
  declares _ _ := ⟨[],List.nil_subset _,(List.append_nil _).symm⟩

theorem Concerns.andThen (hf : f.Concerns target keys) (hg : g.Concerns target more) :
    (f.andThen g).Concerns target (keys ++ more) := by
  have hcases (r : Registry) : (f.andThen g) r = g (f r).1 ∧ (f r).2 = none ∨
      ((f.andThen g) r).1 = (f r).1 ∧ ∃ e, ((f.andThen g) r).2 = some e ∧ (f r).2 = some e := by
    -- where the first step fails, its error and what it leaves stand
    rw [Step.andThen]
    rcases f r with ⟨r',_ | e⟩
    · exact .inl ⟨rfl,rfl⟩
    · exact .inr ⟨rfl,e,rfl,rfl⟩
  refine ⟨fun r => ?_,fun r h => ?_,fun r name hne => ?_,fun r r' hfrozen hsame => ?_,fun r name => ?_⟩
  · obtain ⟨heq,_⟩ | ⟨heq,_⟩ := hcases r
    · rw [heq,hg.fingerprint,hf.fingerprint]
    · rw [heq,hf.fingerprint]
  · obtain ⟨heq,_⟩ | ⟨heq,_⟩ := hcases r
    · rw [heq]
      exact hg.tidy _ (hf.tidy r h)
    · rw [heq]
      exact hf.tidy r h
  · obtain ⟨heq,_⟩ | ⟨heq,_⟩ := hcases r
    · rw [heq,hg.others _ name hne,hf.others r name hne]
    · rw [heq,hf.others r name hne]
  · -- the second step is made in both registries or in neither, for the first one answers alike
    obtain ⟨hanswer,hunder⟩ := hf.same r r' hfrozen hsame
    obtain ⟨heq,hnone⟩ | ⟨heq,e,he,hsome⟩ := hcases r <;> obtain ⟨heq',hnone'⟩ | ⟨heq',e',he',hsome'⟩ := hcases r'
    · rw [heq,heq']
      refine hg.same _ _ ?_ hunder
      rw [hf.fingerprint,hf.fingerprint,hfrozen]
    · rw [hnone,hsome'] at hanswer
      cases hanswer
    · rw [hsome,hnone'] at hanswer
      cases hanswer
    · rw [heq,heq',he,he',← hsome,← hsome',hanswer]
      exact ⟨rfl,hunder⟩
  · obtain ⟨before,hbefore,hkeys⟩ := hf.declares r name
    obtain ⟨heq,_⟩ | ⟨heq,_⟩ := hcases r
    · obtain ⟨after,hafter,hkeys'⟩ := hg.declares (f r).1 name
      refine ⟨before ++ after,?_,by rw [heq,hkeys',hkeys,List.append_assoc]⟩
      exact List.append_subset.mpr ⟨List.subset_append_of_subset_left _ hbefore,
        List.subset_append_of_subset_right _ hafter⟩
    · exact ⟨before,List.subset_append_of_subset_left _ hbefore,by rw [heq,hkeys]⟩

section Changes

variable {c : Class Value}

/-- A change that is refused by what stands under the name of a class. -/
theorem concerns_checked {check : Registry → Except Error Unit} {change : Registry → Registry}
    (hcheck : ∀ r r' : Registry, r.fingerprint = r'.fingerprint → r.under c.name = r'.under c.name → check r = check r')
    (h : Concerns (some c.name) keys fun r => (change r, none)) :
    Concerns (some c.name) keys (whole fun r => check r >>= fun _ => .ok (change r)) := by
  have hwhole (r : Registry) : whole (fun r => check r >>= fun _ => .ok (change r)) r =
      match check r with
      | .ok _ => (change r, none)
      | .error e => (r, some e) := by
    rw [whole]
    cases check r <;> rfl
  refine ⟨fun r => ?_,fun r htidy => ?_,fun r name hne => ?_,fun r r' hfrozen hsame => ?_,fun r name => ?_⟩
  · rw [hwhole]
    cases check r with
    | ok _ => exact h.fingerprint r
    | error e => rfl
  · rw [hwhole]
    cases check r with
    | ok _ => exact h.tidy r htidy
    | error e => exact htidy
  · rw [hwhole]
    cases check r with
    | ok _ => exact h.others r name hne
    | error e => rfl
  · rw [hwhole,hwhole,hcheck r r' hfrozen (hsame c.name rfl)]
    cases check r' with
    | ok _ => exact h.same r r' hfrozen hsame
    | error e => exact ⟨rfl,hsame⟩
  · rw [hwhole]
    cases check r with
    | ok _ => exact h.declares r name
    | error e => exact ⟨[],List.nil_subset _,(List.append_nil _).symm⟩

/-- A change of what is held under the name of a class, by what is held there. -/
theorem concerns_held {change : Registry → Registry} (holds : Holding → Holding)
    (hfingerprint : ∀ r, (change r).fingerprint = r.fingerprint) (htidy : ∀ r : Registry, r.Tidy → (change r).Tidy)
    (hunder : ∀ r name, (change r).under name = if c.name = name then holds (r.under name) else r.under name)
    (hkeys : ∀ held : Holding, ∃ more ⊆ keys, (holds held).table.map (·.1) = held.table.map (·.1) ++ more) :
    Concerns (some c.name) keys fun r => (change r, none) where
  fingerprint := hfingerprint
  tidy := htidy
  others r name hne := by
    rw [hunder,if_neg fun heq => hne (congrArg some heq.symm)]
  same r r' _ hsame := ⟨rfl,fun name hname => by rw [hunder,hunder,hsame name hname]⟩
  declares r name := by
    rw [declared_eq,declared_eq,hunder]
    split
    · exact hkeys _
    · exact ⟨[],List.nil_subset _,(List.append_nil _).symm⟩

theorem concerns_mark (new : Registration) (change : Registration → Registration) :
    Concerns (some c.name) keys fun r => ({ r with entities := fileUnder r.entities c new change }, none) := by
  refine concerns_held (fun held => { held with
      marked := some (held.marked.elim (c, change new) fun entry => (entry.1, change entry.2)) })
    (fun _ => rfl) (fun _ h => ⟨fileUnder_names_nodup h.marked,h.declared,h.keys⟩) (fun r name => ?_)
    fun held => ⟨[],List.nil_subset _,(List.append_nil _).symm⟩
  simp only [under,filing?_fileUnder]
  split <;> rfl

theorem concerns_declare (key : String) (o : Options) :
    Concerns (some c.name) [key] fun r =>
      ({ r with declarations := fileUnder r.declarations c [] fun table => table.upsert .overlay key o }, none) := by
  refine concerns_held (fun held => { held with
      declared := some (held.declared.elim (c, OptionTable.upsert .overlay [] key o) fun entry =>
        (entry.1, entry.2.upsert .overlay key o)) })
    (fun _ => rfl) (fun r h => ⟨h.marked,fileUnder_names_nodup h.declared,fun entry hentry => ?_⟩) (fun r name => ?_)
    fun held => ?_
  · rcases mem_fileUnder hentry with hold | ⟨_,table,htable,heq⟩
    · exact h.keys entry hold
    · rw [heq]
      refine OptionTable.upsert_keys_nodup _ key o ?_
      rcases htable with rfl | ⟨old,hold,rfl⟩
      · exact List.nodup_nil
      · exact h.keys old hold
  · simp only [under,filing?_fileUnder]
    split <;> rfl
  · have hsub (l : List String) : (if key ∈ l then [] else [key]) ⊆ [key] := by
      split
      · exact List.nil_subset _
      · exact List.Subset.refl _
    obtain ⟨marked,_ | entry⟩ := held
    · exact ⟨_,hsub _,OptionTable.upsert_keys _ [] key o⟩
    · exact ⟨_,hsub _,OptionTable.upsert_keys _ entry.2 key o⟩

end Changes

end Step

open Step

def targetOf (cls : TypeExpr Value) : Option ClassName := cls.class?.map (·.name)

theorem checkMutable_congr (h : r.fingerprint = r'.fingerprint) (attempt : Attempt) :
    r.checkMutable attempt = r'.checkMutable attempt := by
  rw [checkMutable,checkMutable,frozen,frozen,h]

theorem concerns_entity (cls : TypeExpr Value) (name : Option String) (embedded : Option Bool) (together : Value) :
    Concerns (targetOf cls) [] (whole fun r => r.registerEntity cls name embedded together) := by
  cases cls with
  | cls c =>
    by_cases hname : name = some ""
    · simp only [registerEntity,if_pos hname]
      exact concerns_still (some _)
    · cases hgroups : readTogether together with
      | error e =>
        simp only [registerEntity,if_neg hname,hgroups]
        exact concerns_still (some e)
      | ok groups =>
        simp only [registerEntity,if_neg hname,hgroups]
        exact concerns_checked (fun _ _ hfrozen _ => checkMutable_congr hfrozen _) (concerns_mark {} _)
  | _ => exact concerns_still (some _)

/-- Whether a property may be declared: the registry is not frozen, and no other key was made the identifier. -/
def checkDeclared (c : Class Value) (key : String) (o : Options) (r : Registry) : Except Error Unit := do
  r.checkMutable (.property c.name.text key)
  if o.identifies then
    if let some other := otherIdentifier? (r.declared c.name) key then
      .error (.definition (.secondIdentifier c.name.text other) ⟨some c.name.text, some key⟩)

theorem registerEntries_eq (r : Registry) (cls : TypeExpr Value) (key : Value) (es : List (Value × Value)) :
    r.registerEntries cls key es = Options.ofEntries cls key es >>= fun (c, key, o) =>
      checkDeclared c key o r >>= fun _ =>
        .ok { r with declarations := fileUnder r.declarations c [] fun table => table.upsert .overlay key o } := by
  rw [registerEntries]
  cases Options.ofEntries cls key es with
  | error e => rfl
  | ok read =>
    obtain ⟨c,key,o⟩ := read
    simp only [ok_bind,checkDeclared]
    cases r.checkMutable (.property c.name.text key) with
    | error e => rfl
    | ok _ =>
      simp only [ok_bind]
      split
      · cases otherIdentifier? (r.declared c.name) key <;> rfl
      · rfl

/-- The options of a property as they are stored, for a class, a key and options that pass the checks. -/
structure Reads (cls : TypeExpr Value) (key : Value) (es : List (Value × Value)) (c : Class Value) (k : String)
    (o : Options) : Prop where
  cls : cls = .cls c
  key : key.text? = some k
  link : Options.readRelationship c.name.text k (.ofEntries es) ⟨some c.name.text, some k⟩ = .ok o.relationship

theorem ofEntries_ok {cls : TypeExpr Value} {key : Value} {es : List (Value × Value)} {c : Class Value} {k : String}
    {o : Options} (h : Options.ofEntries cls key es = .ok (c, k, o)) : Reads cls key es c k o := by
  cases cls with
  | cls d =>
    simp only [Options.ofEntries] at h
    cases hread : key.text? with
    | none =>
      rw [hread] at h
      cases h
    | some k' =>
      rw [hread] at h
      dsimp only at h
      split at h
      · cases h
      · rw [ok_bind] at h
        obtain ⟨_,_,h⟩ := bind_eq_ok.mp h
        obtain ⟨_,_,h⟩ := bind_eq_ok.mp h
        obtain ⟨_,_,h⟩ := bind_eq_ok.mp h
        obtain ⟨_,_,h⟩ := bind_eq_ok.mp h
        obtain ⟨_,hlink,h⟩ := bind_eq_ok.mp h
        cases pure_eq_ok.mp h
        exact ⟨rfl,hread,hlink⟩
  | _ => cases h

theorem concerns_property (cls : TypeExpr Value) (key : Value) (es : List (Value × Value)) :
    Concerns (targetOf cls) key.text?.toList (whole fun r => r.registerEntries cls key es) := by
  simp only [registerEntries_eq]
  cases hread : Options.ofEntries cls key es with
  | error e => exact concerns_still (some e)
  | ok read =>
    obtain ⟨c,k,o⟩ := read
    obtain ⟨rfl,hkey,_⟩ := ofEntries_ok hread
    rw [hkey]
    refine concerns_checked (fun r r' hfrozen hunder => ?_) (concerns_declare k o)
    have hdeclared : r.declared c.name = r'.declared c.name := by rw [declared_eq,declared_eq,hunder]
    rw [checkDeclared,checkDeclared,checkMutable_congr hfrozen,hdeclared]

theorem concerns_relationship (cls : TypeExpr Value) (key : Value) (given : Given) :
    Concerns (targetOf cls) key.text?.toList (whole fun r => r.registerRelationship cls key given) := by
  cases hlink : Relationship.ofEntries cls.ownName (key.text?.getD key.display) given.entries with
  | error e =>
    simp only [registerRelationship,hlink]
    exact concerns_still (some e)
  | ok relationship =>
    simp only [registerRelationship,hlink]
    exact concerns_property cls key _

def keysOf (properties : List (Value × Given)) : List String := properties.flatMap fun entry => entry.1.text?.toList

theorem concerns_bulk (cls : TypeExpr Value) (properties : List (Value × Given)) :
    Concerns (targetOf cls) (keysOf properties) fun r => r.registerBulk cls properties := by
  induction properties with
  | nil => exact concerns_still none
  | cons entry rest ih =>
    obtain ⟨key,given⟩ := entry
    have heq : (fun r : Registry => r.registerBulk cls ((key, given) :: rest)) =
        (whole fun r => r.registerProperty cls key given).andThen fun r => r.registerBulk cls rest := by
      funext r
      rw [registerBulk,andThen,whole]
      cases r.registerProperty cls key given <;> rfl
    rw [heq]
    exact (concerns_property cls key given.entries).andThen ih

theorem concerns_declaration (cls : TypeExpr Value) (name : Option String) (embedded : Option Bool) (together : Value)
    (properties : List (Value × Given)) :
    Concerns (targetOf cls) (keysOf properties) fun r => r.declareEntity cls name embedded together properties := by
  have heq : (fun r : Registry => r.declareEntity cls name embedded together properties) =
      (whole fun r => r.registerEntity cls name embedded together).andThen fun r => r.registerBulk cls properties := by
    funext r
    rw [declareEntity,andThen,whole]
    cases r.registerEntity cls name embedded together <;> rfl
  rw [heq]
  exact (concerns_entity cls name embedded together).andThen (concerns_bulk cls properties)

end Registry

namespace Demand

open Registry

/-- The class that a registration is made for. -/
def target : Demand → Option ClassName
  | entity cls .. | property cls .. | relationship cls .. | bulk cls _ | declaration cls .. => targetOf cls
  | freeze | reading _ => none

/-- The keys that a registration declares. -/
def keys : Demand → List String
  | property _ key _ | relationship _ key _ => key.text?.toList
  | bulk _ properties | declaration _ _ _ _ properties => keysOf properties
  | entity .. | freeze | reading _ => []

/-- What a registration does to the registry itself. -/
def step : Demand → Step
  | entity cls name embedded together => Step.whole fun r => r.registerEntity cls name embedded together
  | property cls key given => Step.whole fun r => r.registerProperty cls key given
  | relationship cls key given => Step.whole fun r => r.registerRelationship cls key given
  | bulk cls properties => fun r => r.registerBulk cls properties
  | declaration cls name embedded together properties => fun r => r.declareEntity cls name embedded together properties
  | freeze | reading _ => fun r => (r, none)

theorem concerns_step (q : Demand) : q.step.Concerns q.target q.keys := by
  cases q with
  | entity cls name embedded together => exact concerns_entity cls name embedded together
  | property cls key given => exact concerns_property cls key given.entries
  | relationship cls key given => exact concerns_relationship cls key given
  | bulk cls properties => exact concerns_bulk cls properties
  | declaration cls name embedded together properties =>
    exact concerns_declaration cls name embedded together properties
  | freeze | reading => exact Step.concerns_still none

/-- A registration changes the registry behind the cache, and the cache not at all. -/
theorem serve_step {q : Demand} (h : q.registers = true) (s : CachedRegistry) :
    q.serve.run s = ((q.step s.registry).2.elim (.ok ⟨⟩) .error, { s with registry := (q.step s.registry).1 }) := by
  have hwhole (f : Registry → Except Error Registry) : (Serving.change f).run s =
      ((Step.whole f s.registry).2.elim (.ok ⟨⟩) .error, { s with registry := (Step.whole f s.registry).1 }) := by
    rw [Serving.run_change,Step.whole]
    cases f s.registry <;> rfl
  have hpartly (f : Step) : (Serving.changePartly f).run s =
      ((f s.registry).2.elim (.ok ⟨⟩) .error, { s with registry := (f s.registry).1 }) := by
    rw [Serving.run_changePartly]
    cases (f s.registry).2 <;> rfl
  cases q with
  | entity cls name embedded together => exact hwhole fun r => r.registerEntity cls name embedded together
  | property cls key given => exact hwhole fun r => r.registerProperty cls key given
  | relationship cls key given => exact hwhole fun r => r.registerRelationship cls key given
  | bulk cls properties => exact hpartly fun r => r.registerBulk cls properties
  | declaration cls name embedded together properties =>
    exact hpartly fun r => r.declareEntity cls name embedded together properties
  | freeze | reading => cases h

/-- What is no registration leaves the tables. -/
theorem after_unregistered {q : Demand} (h : q.registers = false) {s : CachedRegistry} (hcoherent : s.Coherent) :
    ∃ fingerprint, (q.after s).registry = s.registry.withFingerprint fingerprint := by
  cases q with
  | freeze =>
    rw [after_freeze,Serving.run_freeze hcoherent]
    cases hfreeze : s.registry.freeze with
    | error e => exact ⟨s.registry.fingerprint,rfl⟩
    | ok answer =>
      obtain ⟨_,_,hregistry⟩ := freeze_eq_ok.mp hfreeze
      exact ⟨_,hregistry⟩
  | reading client => exact ⟨s.registry.fingerprint,(Asking.onCache_eq client hcoherent).2.registry⟩
  | _ => cases h

end Demand

namespace CachedRegistry

open Registry

variable {s : CachedRegistry}

theorem tidy_after (h : s.registry.Tidy) (hcoherent : s.Coherent) (q : Demand) : (q.after s).registry.Tidy := by
  cases hq : q.registers with
  | true =>
    rw [Demand.after,Demand.serve_step hq]
    exact q.concerns_step.tidy _ h
  | false =>
    obtain ⟨fingerprint,heq⟩ := Demand.after_unregistered hq hcoherent
    rw [heq]
    exact ⟨h.marked,h.declared,h.keys⟩

theorem Coherent.tidy_run (hcoherent : s.Coherent) (h : s.registry.Tidy) (demands : List Demand) :
    (s.run demands).registry.Tidy := by
  induction demands generalizing s with
  | nil => exact h
  | cons q rest ih => exact ih (Demand.after_coherent hcoherent q).1 (tidy_after h hcoherent q)

/-- What every run from an empty registry keeps. -/
theorem coherent_tidy {demands : List Demand} (hs : s = run {} demands) : s.Coherent ∧ s.registry.Tidy := by
  subst hs
  exact ⟨((coherent_new {}).run demands).1,(coherent_new {}).tidy_run tidy_empty demands⟩

end CachedRegistry

end Trischema
