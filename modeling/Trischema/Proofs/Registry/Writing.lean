import Trischema.Proofs.Registry.Tables
import Trischema.Registry.Writing

/-!
Registration as a whole. Every check of a call comes before the first write that shows, so that a call that fails leaves
the registry as it was, and a bulk is the calls for its entries one after another.
-/

namespace Trischema

section Filing

variable {β : Type} {table : List (Class Value × β)} {c : Class Value} {new new' : β} {change change' : β → β}

theorem fileUnder_fileUnder :
    fileUnder (fileUnder table c new change) c new' change' = fileUnder table c new fun b => change' (change b) := by
  induction table with
  | nil => simp [fileUnder]
  | cons entry rest ih =>
    obtain ⟨d,b⟩ := entry
    rw [fileUnder,fileUnder]
    by_cases h : d.name = c.name
    · simp [fileUnder,h]
    · simp [fileUnder,h,ih]

/-- Where something is filed already, opening changes nothing. -/
theorem fileUnder_id (h : (filed? table c.name).isSome = true) : fileUnder table c new id = table := by
  induction table with
  | nil => cases h
  | cons entry rest ih =>
    obtain ⟨d,b⟩ := entry
    rw [fileUnder]
    by_cases hname : d.name = c.name
    · rw [if_pos hname]
      rfl
    · have hrest : (filed? rest c.name).isSome = true := by simpa [filed?,hname] using h
      rw [if_neg hname,ih hrest]

theorem filed?_opened : (filed? (fileUnder table c new id) c.name).getD new = (filed? table c.name).getD new := by
  rw [filed?_eq,filed?_eq,filing?_fileUnder,if_pos rfl]
  cases filing? table c.name <;> rfl

end Filing

namespace CachedRegistry

/-- A registry after a write to the registration of a class. -/
def marked (s : CachedRegistry) (c : Class Value) (change : Registration → Registration) : CachedRegistry :=
  { s with registry := { s.registry with entities := fileUnder s.registry.entities c {} change } }

/-- A registry after a write to the declarations of a class. -/
def declared (s : CachedRegistry) (c : Class Value) (change : OptionTable → OptionTable) : CachedRegistry :=
  { s with registry := { s.registry with declarations := fileUnder s.registry.declarations c [] change } }

variable (s : CachedRegistry) (c : Class Value)

theorem marked_marked (f g : Registration → Registration) :
    (s.marked c f).marked c g = s.marked c fun old => g (f old) := by
  simp only [marked,fileUnder_fileUnder]

theorem declared_declared (f g : OptionTable → OptionTable) :
    (s.declared c f).declared c g = s.declared c fun old => g (f old) := by
  simp only [declared,fileUnder_fileUnder]

/-- Opening the declarations of a class shows in no lookup among them. -/
theorem declared_id_declared : (s.declared c id).registry.declared c.name = s.registry.declared c.name :=
  filed?_opened

end CachedRegistry

namespace Serving

open Registry

variable {s left : CachedRegistry} {c : Class Value}

theorem run_checkMutable (attempt : Attempt) (s : CachedRegistry) :
    (checkMutable attempt).run s = (s.registry.checkMutable attempt, s) := rfl

theorem run_writeRegistration (change : Registration → Registration) (s : CachedRegistry) :
    (writeRegistration c change).run s = (.ok ⟨⟩, s.marked c change) := rfl

theorem run_writeDeclarations (change : OptionTable → OptionTable) (s : CachedRegistry) :
    (writeDeclarations c change).run s = (.ok ⟨⟩, s.declared c change) := rfl

/-- A setting that is not given stays as it is. -/
theorem run_writeSetting {α : Type} (setting : Option α) (change : α → Registration → Registration)
    (before : Registration → Registration) (s : CachedRegistry) :
    (writeSetting c setting change).run (s.marked c before) =
      (.ok ⟨⟩, s.marked c fun old => setting.elim (before old) fun a => change a (before old)) := by
  cases setting with
  | none => rfl
  | some a =>
    rw [writeSetting,run_writeRegistration,CachedRegistry.marked_marked]
    rfl

/-- Marking a class is one change, which is made after every check. -/
theorem run_registerEntity (cls : TypeExpr Value) (name : Option String) (embedded : Option Bool) (together : Value)
    (s : CachedRegistry) :
    (registerEntity cls name embedded together).run s = (change (·.registerEntity cls name embedded together)).run s := by
  rw [run_change]
  cases cls with
  | cls c =>
    simp only [registerEntity,Registry.registerEntity,run_bind,run_ofExcept]
    by_cases hname : name = some ""
    · rw [if_pos hname,if_pos hname]
      rfl
    · rw [if_neg hname,if_neg hname]
      cases readTogether together with
      | error e => rfl
      | ok groups =>
        simp only [ok_bind,run_checkMutable]
        cases s.registry.checkMutable (.entity c.name.text) with
        | error e => rfl
        | ok _ =>
          simp only [run_writeRegistration,run_writeSetting]
          -- the writes one after another are the change at once, whichever settings are given
          refine congrArg (Prod.mk _) (congrArg (s.marked c) (funext fun old => ?_))
          cases name <;> cases embedded <;> cases groups <;> rfl
  | _ => rfl

theorem run_checkIdentifier (c : Class Value) (key : String) (o : Options) (s : CachedRegistry) :
    (checkIdentifier c key o).run s =
      (if o.identifies then
        match otherIdentifier? (s.registry.declared c.name) key with
        | some other => .error (.definition (.secondIdentifier c.name.text other) ⟨some c.name.text, some key⟩)
        | none => .ok ⟨⟩
      else .ok ⟨⟩, s) := by
  rw [checkIdentifier]
  split
  · simp only [run_bind,run_get]
    cases otherIdentifier? (s.registry.declared c.name) key <;> rfl
  · rfl

/-- Another identifier is found only where the declarations of the class were opened before. -/
theorem declared_of_otherIdentifier {key other : String}
    (h : otherIdentifier? (s.registry.declared c.name) key = some other) : s.declared c id = s := by
  have hfiled : (filed? s.registry.declarations c.name).isSome = true := by
    by_contra hnone
    have hempty : s.registry.declared c.name = [] := by
      rw [Registry.declared,Option.not_isSome_iff_eq_none.mp hnone]
      rfl
    rw [hempty] at h
    cases h
  rw [CachedRegistry.declared,fileUnder_id hfiled]

/-- Declaring a property is one change. Its declarations are opened before the last check, which fails only where they
were open. -/
theorem run_declareProperty (cls : TypeExpr Value) (key : Value) (es : List (Value × Value)) (s : CachedRegistry) :
    (declareProperty cls key es).run s = (change (·.registerEntries cls key es)).run s := by
  rw [run_change,registerEntries_eq]
  simp only [declareProperty,run_bind,run_ofExcept]
  cases Options.ofEntries cls key es with
  | error e => rfl
  | ok read =>
    obtain ⟨c,key,o⟩ := read
    simp only [ok_bind,checkDeclared,run_checkMutable]
    cases s.registry.checkMutable (.property c.name.text key) with
    | error e => rfl
    | ok _ =>
      have hwrite : (s.declared c id).declared c (fun table => table.upsert .overlay key o) =
          s.declared c fun table => table.upsert .overlay key o := CachedRegistry.declared_declared s c _ _
      simp only [run_writeDeclarations,run_checkIdentifier,CachedRegistry.declared_id_declared,ok_bind]
      by_cases hidentifies : o.identifies = true
      · rw [if_pos hidentifies,if_pos hidentifies]
        cases hother : otherIdentifier? (s.registry.declared c.name) key with
        | none =>
          dsimp only
          rw [hwrite]
          rfl
        | some other =>
          dsimp only
          rw [declared_of_otherIdentifier hother]
          rfl
      · rw [if_neg hidentifies,if_neg hidentifies]
        dsimp only
        rw [hwrite]
        rfl

end Serving

namespace Given

theorem mem_ofEntries {es : List (Value × Value)} {option : String × Value} :
    option ∈ ofEntries es ↔ ∃ k, (k, option.2) ∈ es ∧ k.word? = some option.1 := by
  simp [ofEntries,Prod.ext_iff,and_comm]

@[simp]
theorem ofEntries_entries (given : Given) : ofEntries given.entries = given := by
  simp [ofEntries,entries,List.filterMap_map,Value.word?,Value.text?]

end Given

namespace Options

variable {cls : TypeExpr Value} {c : Class Value} {key : Value} {k : String} {given : Given} {es : List (Value × Value)}
  {o : Options} {link options : Value} {relationship : Relationship Value}

/-- Options that are given as a dictionary alone are its entries, also when it has none. -/
theorem overlaid_mapping (es : List (Value × Value)) : overlaid (.mapping es) [] = .ok es := by cases es <;> rfl

theorem readRelationship_eq_ok {cls key : String} {site : Site} {read : Option (Relationship Value)}
    (hlink : given.lookup "relationship" = some link) :
    readRelationship cls key given site = .ok read ↔ ∃ relationship, read = some relationship ∧
      (link = .relationship relationship ∨
        ∃ es, link = .mapping es ∧ Relationship.ofEntries cls key es = .ok relationship) := by
  rw [readRelationship,hlink]
  cases link with
  | relationship relationship => simp [eq_comm]
  | mapping es =>
    simp only [map_eq_ok]
    constructor
    · rintro ⟨relationship,hbuilt,rfl⟩
      exact ⟨relationship,rfl,.inr ⟨es,rfl,hbuilt⟩⟩
    · rintro ⟨relationship,rfl,heq | ⟨es',heq,hbuilt⟩⟩
      · cases heq
      · cases heq
        exact ⟨relationship,hbuilt,rfl⟩
  | _ => simp

/-- What declaring a link alone needs and stores. -/
theorem ofEntries_link_eq_ok (hlink : (Given.ofEntries es).lookup "relationship" = some link)
    (halone : ∀ entry ∈ es, entry.1.word? = some "relationship") :
    ofEntries cls key es = .ok (c, k, o) ↔
      cls = .cls c ∧ key.text? = some k ∧ k.isEmpty = false ∧ ∃ relationship,
        (link = .relationship relationship ∨
          ∃ es, link = .mapping es ∧ Relationship.ofEntries c.name.text k es = .ok relationship) ∧
        o = { relationship := some relationship } := by
  have hknown : Given.unknownKeys optionNames es = [] := by
    rw [Given.unknownKeys,List.filter_eq_nil_iff,List.forall_mem_map]
    intro entry hentry
    rw [halone entry hentry]
    decide
  have hchecked (fault : List Value → DefinitionFault) (site : Site) : Given.checkKeys optionNames es fault site = .ok () := by
    rw [Given.checkKeys,hknown]
    rfl
  have hother {name : String} (hname : name ≠ "relationship") : (Given.ofEntries es).lookup name = none := by
    rw [List.lookup_eq_none_iff]
    intro option hoption
    obtain ⟨k,hentry,hkey⟩ := Given.mem_ofEntries.mp hoption
    have hsame : option.1 = "relationship" := Option.some.inj (hkey.symm.trans (halone _ hentry))
    rw [hsame]
    simpa using hname
  have htype (cls key : String) (site : Site) : readType cls key (.ofEntries es) site = .ok {} := by
    rw [readType,hother (by decide)]
  have hflags (cls key : String) (site : Site) : readFlags cls key (.ofEntries es) site {} FlagOption.all = .ok {} := by
    simp only [FlagOption.all,readFlags]
    rw [hother (by decide),hother (by decide),hother (by decide)]
  have henum (cls key : String) (site : Site) : readEnum cls key (.ofEntries es) site = .ok none := by
    rw [readEnum,hother (by decide)]
  have hdefault : (Given.ofEntries es).lookup "default" = none := hother (by decide)
  have hread (hkey : key.text? = some k) (hnonempty : k.isEmpty = false) : ofEntries (.cls c) key es =
      (readRelationship c.name.text k (.ofEntries es) ⟨some c.name.text, some k⟩).map fun relationship =>
        (c, k, { relationship }) := by
    simp only [ofEntries,hkey,hnonempty,hchecked,htype,hflags,henum,hdefault,ok_bind]
    cases readRelationship c.name.text k (.ofEntries es) ⟨some c.name.text, some k⟩ <;> rfl
  constructor
  · intro h
    obtain ⟨rfl,hkey,_⟩ := Registry.ofEntries_ok h
    have hnonempty : k.isEmpty = false := by
      by_contra hempty
      have hempty : k.isEmpty = true := by simpa using hempty
      simp only [ofEntries,hkey,if_pos hempty] at h
      cases h
    rw [hread hkey hnonempty,map_eq_ok] at h
    obtain ⟨read,hread,heq⟩ := h
    obtain ⟨relationship,rfl,hbuilt⟩ := (readRelationship_eq_ok hlink).mp hread
    cases heq
    exact ⟨rfl,hkey,hnonempty,relationship,hbuilt,rfl⟩
  · rintro ⟨rfl,hkey,hnonempty,relationship,hbuilt,rfl⟩
    rw [hread hkey hnonempty,(readRelationship_eq_ok hlink).mpr ⟨relationship,rfl,hbuilt⟩]
    rfl

theorem builtLink_eq_ok (hkey : key.text? = some k) :
    builtLink (.cls c) key link [] = .ok relationship ↔
      link = .relationship relationship ∨
        ∃ es, link = .mapping es ∧ Relationship.ofEntries c.name.text k es = .ok relationship := by
  -- what counts as false stands for no options, and a link needs some
  have hfalse : Relationship.ofEntries c.name.text k [] ≠ .ok relationship := by
    intro h
    cases h
  cases link with
  | relationship relationship => simp [builtLink]
  | mapping es =>
    simp only [builtLink,overlaid_mapping,ok_bind,hkey]
    constructor
    · intro h
      exact .inr ⟨es,rfl,h⟩
    · rintro (heq | ⟨es',heq,h⟩)
      · cases heq
      · cases heq
        exact h
  | _ =>
    constructor
    · intro h
      simp only [builtLink,overlaid] at h
      split at h
      · cases h
      · rw [ok_bind,hkey] at h
        exact absurd h hfalse
    · rintro (heq | ⟨es,heq,_⟩)
      · cases heq
      · cases heq

end Options

namespace RegistryCall

open Registry

/-- What a call makes of a registry. -/
def outcome (call : RegistryCall) (r : Registry) : Except Error Registry :=
  match call with
  | entity cls name embedded together => r.registerEntity cls name embedded together
  | property cls key options named => do
    r.registerEntries cls key (← Options.overlaid options named)
  | relationship cls key options named => do
    let relationship ← Options.builtLink cls key options named
    r.registerEntries cls key [(.str "relationship", .relationship relationship)]

/-- A call is one change, which is made as a whole or not at all. -/
theorem run_make (call : RegistryCall) (s : CachedRegistry) : call.make.run s = (Serving.change call.outcome).run s := by
  cases call with
  | entity cls name embedded together => exact Serving.run_registerEntity cls name embedded together s
  | property cls key options named =>
    simp only [make,Serving.registerProperty,Serving.run_bind,Serving.run_ofExcept,Serving.run_change,outcome]
    cases Options.overlaid options named with
    | error e => rfl
    | ok given =>
      dsimp only
      rw [Serving.run_declareProperty,Serving.run_change,ok_bind]
  | relationship cls key options named =>
    simp only [make,Serving.registerRelationship,Serving.run_bind,Serving.run_ofExcept,Serving.run_change,outcome]
    cases Options.builtLink cls key options named with
    | error e => rfl
    | ok relationship =>
      dsimp only
      rw [Serving.run_declareProperty,Serving.run_change,ok_bind]

/-- A call that fails leaves no trace. -/
theorem make_error {call : RegistryCall} {s : CachedRegistry} {e : Error} (h : (call.make.run s).1 = .error e) :
    (call.make.run s).2 = s := by
  rw [run_make,Serving.run_change] at h ⊢
  cases houtcome : call.outcome s.registry with
  | error e => rfl
  | ok r =>
    rw [houtcome] at h
    cases h

theorem each_cons (call : RegistryCall) (rest : List RegistryCall) (s : CachedRegistry) :
    (each (call :: rest)).run s =
      match call.make.run s with
      | (.ok _, left) => (each rest).run left
      | (.error e, left) => (.error e, left) := by
  rw [each,Serving.run_bind]
  rcases call.make.run s with ⟨_ | _,_⟩ <;> rfl

/-- Calls are all made, or those before the first that fails. -/
theorem each_refusedAt (calls : List RegistryCall) (s : CachedRegistry) :
    (refusedAt calls s = none → ((each calls).run s).1 = .ok ⟨⟩) ∧
    ∀ i, refusedAt calls s = some i → (∃ e, ((each calls).run s).1 = .error e) ∧
      (each (calls.take i)).run s = (.ok ⟨⟩, ((each calls).run s).2) := by
  induction calls generalizing s with
  | nil =>
    refine ⟨fun _ => rfl,fun i h => ?_⟩
    cases h
  | cons call rest ih =>
    rw [refusedAt,each_cons]
    have hfails (e : Error) (h : (call.make.run s).1 = .error e) : (call.make.run s).2 = s := make_error h
    rcases hcall : call.make.run s with ⟨_ | _,left⟩
    · rename_i e
      rw [hcall] at hfails
      refine ⟨fun h => by (cases h),fun i h => ?_⟩
      cases h
      have hleft : left = s := hfails e rfl
      subst hleft
      exact ⟨⟨e,rfl⟩,rfl⟩
    · obtain ⟨haccepted,hrefused⟩ := ih left
      dsimp only
      refine ⟨fun h => haccepted (Option.map_eq_none_iff.mp h),fun i h => ?_⟩
      obtain ⟨i,hi,rfl⟩ := Option.map_eq_some_iff.mp h
      obtain ⟨hfails,hbefore⟩ := hrefused i hi
      refine ⟨hfails,?_⟩
      rw [List.take_succ_cons,each_cons,hcall]
      exact hbefore

theorem property_outcome (cls : TypeExpr Value) (key : Value) (given : Given) (r : Registry) :
    (property cls key (.record given) []).outcome r = r.registerProperty cls key given := by
  rw [outcome,Value.record,Options.overlaid_mapping,ok_bind]
  rfl

/-- The registrations that a registry serves are these calls, with options given as dictionaries. -/
theorem serve_make (cls : TypeExpr Value) (name : Option String) (embedded : Option Bool) (together key : Value)
    (given : Given) (s : CachedRegistry) :
    (Demand.entity cls name embedded together).serve.run s = (entity cls name embedded together).make.run s ∧
    (Demand.property cls key given).serve.run s = (property cls key (.record given) []).make.run s ∧
    (Demand.relationship cls key given).serve.run s = (relationship cls key (.record given) []).make.run s := by
  refine ⟨(run_make (entity cls name embedded together) s).symm,?_,?_⟩
  · rw [run_make,Serving.run_change,property_outcome]
    exact Serving.run_change (·.registerProperty cls key given) s
  · have hlink : Options.builtLink cls key (.record given) [] =
        Relationship.ofEntries cls.ownName (key.text?.getD key.display) given.entries := by
      rw [Value.record,Options.builtLink,Options.overlaid_mapping,ok_bind]
      · rfl
      · intro relationship h
        cases h
    rw [run_make,Serving.run_change,outcome,hlink]
    exact Serving.run_change (·.registerRelationship cls key given) s

theorem serve_bulk (cls : TypeExpr Value) (properties : List (Value × Given)) (s : CachedRegistry) :
    (Demand.bulk cls properties).serve.run s =
      (each (bulk cls (properties.map fun (key, given) => (key, .record given)))).run s := by
  rw [Demand.serve,Serving.run_changePartly]
  induction properties generalizing s with
  | nil => rfl
  | cons entry rest ih =>
    obtain ⟨key,given⟩ := entry
    rw [List.map_cons,bulk,List.map_cons,each_cons,run_make,Serving.run_change,property_outcome,registerBulk]
    cases s.registry.registerProperty cls key given with
    | error e => rfl
    | ok r => exact ih { s with registry := r }

/-- Two calls that make the same of every registry, or both nothing. -/
def Agrees (call call' : RegistryCall) : Prop := ∀ r r', call.outcome r = .ok r' ↔ call'.outcome r = .ok r'

/-- Calls side by side that agree stop at the same place and leave the same. -/
theorem each_agrees {calls calls' : List RegistryCall} (h : List.Forall₂ Agrees calls calls') (s : CachedRegistry) :
    ((each calls).run s).2 = ((each calls').run s).2 ∧ refusedAt calls s = refusedAt calls' s := by
  induction h generalizing s with
  | nil => exact ⟨rfl,rfl⟩
  | @cons call call' rest rest' hagrees _ ih =>
    rw [each_cons,each_cons,refusedAt,refusedAt,run_make,run_make,Serving.run_change,Serving.run_change]
    cases houtcome : call.outcome s.registry with
    | ok r =>
      rw [(hagrees s.registry r).mp houtcome]
      obtain ⟨hleft,hplace⟩ := ih { s with registry := r }
      dsimp only
      exact ⟨hleft,by rw [hplace]⟩
    | error e =>
      cases houtcome' : call'.outcome s.registry with
      | ok r =>
        rw [(hagrees s.registry r).mpr houtcome'] at houtcome
        cases houtcome
      | error e' => exact ⟨rfl,rfl⟩

/-- A link alone is declared as a property just as it is declared as a relationship. -/
theorem agrees_link {cls : TypeExpr Value} {key options link : Value} (hlink : Options.link? options = some link)
    (halone : Options.linkAlone options = true) : Agrees (property cls key options []) (relationship cls key link []) := by
  intro r r'
  cases options with
  | mapping es =>
    rw [Options.link?] at hlink
    have hentries : ∀ entry ∈ es, entry.1.word? = some "relationship" := by
      simpa [Options.linkAlone,hlink] using halone
    have hread {c : Class Value} {k : String} {o : Options} : Options.ofEntries cls key es = .ok (c, k, o) ↔ _ :=
      Options.ofEntries_link_eq_ok hlink hentries
    have hbuilt {relationship : Relationship Value} {c : Class Value} {k : String} {o : Options} :
        Options.ofEntries cls key [(.str "relationship", .relationship relationship)] = .ok (c, k, o) ↔ _ :=
      Options.ofEntries_link_eq_ok rfl (List.forall_mem_singleton.mpr rfl)
    simp only [outcome,Options.overlaid_mapping,ok_bind,registerEntries_eq]
    simp only [bind_eq_ok]
    constructor
    · rintro ⟨⟨c,k,o⟩,hgiven,hdeclared⟩
      obtain ⟨rfl,hkey,hnonempty,relationship,hlinked,rfl⟩ := hread.mp hgiven
      refine ⟨relationship,(Options.builtLink_eq_ok hkey).mpr hlinked,⟨c,k,_⟩,?_,hdeclared⟩
      exact hbuilt.mpr ⟨rfl,hkey,hnonempty,relationship,.inl rfl,rfl⟩
    · rintro ⟨relationship,hlinked,⟨c,k,o⟩,hgiven,hdeclared⟩
      obtain ⟨rfl,hkey,hnonempty,relationship',hsame | ⟨es,hsame,_⟩,rfl⟩ := hbuilt.mp hgiven
      · cases hsame
        refine ⟨⟨c,k,_⟩,hread.mpr ⟨rfl,hkey,hnonempty,relationship,?_,rfl⟩,hdeclared⟩
        exact (Options.builtLink_eq_ok hkey).mp hlinked
      · cases hsame
  | _ => cases hlink

theorem bulk_agrees {cls : TypeExpr Value} {properties : List (Value × Value)}
    (h : ∀ entry ∈ properties, Options.linkAlone entry.2 = true) :
    List.Forall₂ Agrees (bulk cls properties) (singles cls properties) := by
  rw [bulk,singles,List.forall₂_map_left_iff,List.forall₂_map_right_iff,List.forall₂_same]
  rintro ⟨key,options⟩ hentry
  dsimp only
  cases hlink : Options.link? options with
  | none => exact fun _ _ => Iff.rfl
  | some link => exact agrees_link hlink (h _ hentry)

/-- A registration that fails leaves the registry as it was. A bulk whose links stand alone leaves what the single calls
leave, stops where they stop, and leaves what the entries before that place make of the registry. -/
theorem registration_whole (s : CachedRegistry) :
    (∀ (call : RegistryCall) (e : Error), (call.make.run s).1 = .error e → (call.make.run s).2 = s) ∧
    ∀ (cls : TypeExpr Value) (properties : List (Value × Value)),
      (∀ entry ∈ properties, Options.linkAlone entry.2 = true) →
      ((each (bulk cls properties)).run s).2 = ((each (singles cls properties)).run s).2 ∧
      refusedAt (bulk cls properties) s = refusedAt (singles cls properties) s ∧
      (refusedAt (bulk cls properties) s = none → ((each (bulk cls properties)).run s).1 = .ok ⟨⟩) ∧
      ∀ i, refusedAt (bulk cls properties) s = some i →
        (∃ e, ((each (bulk cls properties)).run s).1 = .error e) ∧
        (each (bulk cls (properties.take i))).run s = (.ok ⟨⟩, ((each (bulk cls properties)).run s).2) := by
  refine ⟨fun call e h => make_error h,fun cls properties h => ?_⟩
  obtain ⟨hleft,hplace⟩ := each_agrees (bulk_agrees h) s
  obtain ⟨haccepted,hrefused⟩ := each_refusedAt (bulk cls properties) s
  refine ⟨hleft,hplace,haccepted,fun i hi => ?_⟩
  obtain ⟨hfails,hbefore⟩ := hrefused i hi
  have htake : bulk cls (properties.take i) = (bulk cls properties).take i := List.map_take
  rw [htake]
  exact ⟨hfails,hbefore⟩

/-- Seats are declared by a bulk: a name, the next seat, and then something unknown, before which it stops. -/
def seatEntries : List (Value × Value) :=
  [(.str "label", .record [("type", .type (.builtin .text))]),
    (.str "next", .record [("relationship", .record [("edge_type", .str "NEXT"), ("target", .str "Seat")])]),
    (.str "row", .record [("colour", .str "red")]),
    (.str "side", .record [("type", .type (.builtin .text))])]

theorem registration_whole_seats :
    ((relationship (.cls seat) (.str "next") (.str "NEXT") []).make.run {}).2 = {} ∧
    refusedAt (bulk (.cls seat) seatEntries) {} = some 2 ∧
    refusedAt (singles (.cls seat) seatEntries) {} = some 2 ∧
    ((each (bulk (.cls seat) seatEntries)).run {}).2 = ((each (singles (.cls seat) seatEntries)).run {}).2 ∧
    (each (bulk (.cls seat) (seatEntries.take 2))).run {} = (.ok ⟨⟩, ((each (bulk (.cls seat) seatEntries)).run {}).2) := by
  obtain ⟨hsingle,hbulk⟩ := registration_whole {}
  obtain ⟨hleft,hplace,_,hrefused⟩ := hbulk (.cls seat) seatEntries (by decide)
  have hthird : refusedAt (bulk (.cls seat) seatEntries) {} = some 2 := by with_unfolding_all rfl
  refine ⟨hsingle _ (.failure .kind) (by with_unfolding_all rfl),hthird,?_,hleft,(hrefused 2 hthird).2⟩
  rw [← hplace,hthird]

end RegistryCall

end Trischema
