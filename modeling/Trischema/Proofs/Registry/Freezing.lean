import Trischema.Proofs.Registry.Fingerprint
import Trischema.Registry.Caching

/-!
Freezing a registry. Freezing takes place as a whole or not at all; from then on nothing changes but the cache,
which always answers what merging answers.
-/

namespace Trischema

namespace Registry

variable {r r' : Registry} {c c' : Class Value}

theorem properties_sameName (h : c'.name = c.name) (table : OptionTable) :
    r.properties c' table = r.properties c table := by
  induction table with
  | nil => rfl
  | cons entry table ih =>
    have hname : r.nameOf c' = r.nameOf c := by
      rw [nameOf,nameOf,registration,registration,h]
    rw [properties,properties,ih,property,property,classify,classify,hname]

/-- Merging depends on the full name of a class alone, which tells what it inherits from. -/
theorem merge_sameName (hname : c'.name = c.name) : r.merge c' = (r.merge c).map fun d => { d with cls := c' } := by
  have hlineage : c'.lineage = c.lineage := congrArg ClassName.lineage hname
  have hregistration : r.registration c' = r.registration c := by rw [registration,registration,hname]
  have hnameOf : r.nameOf c' = r.nameOf c := by rw [nameOf,nameOf,hregistration,hname]
  have hembedded : r.isEmbedded c' = r.isEmbedded c := by
    rw [isEmbedded,isEmbedded,hregistration,Class.isA,Class.isA,Class.isA,Class.isA,hlineage]
  have hfolded : r.folded c' = r.folded c := by rw [folded,folded,hlineage]
  have hproperties := properties_sameName (r := r) hname
  simp only [merge,hnameOf,hembedded,hfolded,hregistration,hproperties]
  rcases explicitIdentifiers (r.folded c) with _ | ⟨key,_ | ⟨other,rest⟩⟩
  · simp only [map_bind_eq]
    rfl
  · simp only [map_bind_eq]
    rfl
  · change Except.error _ = Except.error _
    rfl

end Registry

namespace CachedRegistry

variable {s : CachedRegistry} {c : Class Value} {d : Descriptor}

/-- Whether a cache is that of a frozen registry, and holds what merging answers. -/
structure Coherent (s : CachedRegistry) : Prop where
  empty : s.registry.frozen = false → s.merged = []
  fresh : ∀ d ∈ s.merged, s.registry.merge d.cls = .ok d

theorem coherent_new (r : Registry) : Coherent ⟨r, []⟩ := ⟨fun _ => rfl,fun _ h => nomatch h⟩

theorem Coherent.kept (h : s.Coherent) (hkept : s.kept? c = some d) : s.registry.merge c = .ok d := by
  obtain ⟨d',hfound,rfl⟩ := Option.map_eq_some_iff.mp hkept
  have hsame := List.find?_some hfound
  rw [Registry.merge_sameName (eq_of_beq hsame).symm,h.fresh d' (List.mem_of_find?_eq_some hfound)]
  rfl

theorem Coherent.keep (h : s.Coherent) (hmerge : s.registry.merge c = .ok d) :
    (s.keep d).Coherent ∧ (s.keep d).registry = s.registry ∧ (s.registry.frozen = false → s.keep d = s) := by
  rw [CachedRegistry.keep]
  split
  · rename_i hfrozen
    refine ⟨⟨fun hopen => ?_,fun d' hd' => ?_⟩,rfl,fun hopen => ?_⟩
    · rw [hfrozen] at hopen
      cases hopen
    · obtain hd' | hd' := List.mem_append.mp hd'
      · exact h.fresh d' hd'
      · obtain ⟨_,hmerged⟩ := Registry.merge_cases hmerge
        rw [List.mem_singleton.mp hd',hmerged.cls]
        exact hmerge
    · rw [hfrozen] at hopen
      cases hopen
  · exact ⟨h,rfl,fun _ => rfl⟩

/-- Whether asking left everything but the cache of a frozen registry. -/
structure Extends (s left : CachedRegistry) : Prop where
  coherent : left.Coherent
  registry : left.registry = s.registry
  unfrozen : s.registry.frozen = false → left = s

theorem Extends.refl (h : s.Coherent) : s.Extends s := ⟨h,rfl,fun _ => rfl⟩

theorem Extends.trans {left later : CachedRegistry} (h : s.Extends left) (h' : left.Extends later) :
    s.Extends later := by
  refine ⟨h'.coherent,h'.registry.trans h.registry,fun hopen => ?_⟩
  have hleft := h.unfrozen hopen
  subst hleft
  exact h'.unfrozen hopen

/-- A descriptor through the cache is the one that merging answers. -/
theorem Coherent.descriptor (h : s.Coherent) (cls : TypeExpr Value) :
    (s.descriptor cls).1 = s.registry.descriptor cls ∧ s.Extends (s.descriptor cls).2 := by
  cases cls with
  | cls c =>
    rw [CachedRegistry.descriptor,Registry.descriptor]
    cases hregistered : s.registry.isRegistered c with
    | false => exact ⟨rfl,.refl h⟩
    | true =>
      rw [if_pos rfl,if_pos rfl]
      cases hkept : if s.registry.frozen then s.kept? c else none with
      | some d =>
        split at hkept
        · exact ⟨(h.kept hkept).symm,.refl h⟩
        · cases hkept
      | none =>
        cases hmerge : s.registry.merge c with
        | error e => exact ⟨rfl,.refl h⟩
        | ok d =>
          obtain ⟨hcoherent,hregistry,hunfrozen⟩ := h.keep hmerge
          exact ⟨rfl,hcoherent,hregistry,hunfrozen⟩
  | _ => exact ⟨rfl,.refl h⟩

end CachedRegistry

namespace Asking

variable {α β : Type} {s : CachedRegistry}

/-- Who reads through the cache goes on as on a registry that merges anew for each question. -/
theorem onCache_eq (client : Asking α) (h : s.Coherent) :
    (client.onCache s).1 = client.onRegistry s.registry ∧ s.Extends (client.onCache s).2 := by
  induction client generalizing s with
  | answer a => exact ⟨rfl,.refl h⟩
  | ask cls next ih =>
    obtain ⟨hanswer,hextends⟩ := h.descriptor cls
    obtain ⟨hresult,hlater⟩ := ih (s.descriptor cls).1 hextends.coherent
    refine ⟨?_,hextends.trans hlater⟩
    rw [onCache,onRegistry,hresult,hextends.registry,hanswer]

theorem onRegistry_andThen (r : Registry) (client : Asking α) (f : α → Asking β) :
    (client.andThen f).onRegistry r = (f (client.onRegistry r)).onRegistry r := by
  induction client with
  | answer a => rfl
  | ask cls next ih => exact ih (r.descriptor cls)

end Asking

namespace Registry

variable {r : Registry}

theorem exportAll_onRegistry {cs : List (Class Value)} (h : ∀ c ∈ cs, r.isRegistered c = true) :
    (r.exportAll cs).onRegistry r = cs.mapM r.exportClass := by
  induction cs with
  | nil => rfl
  | cons c cs ih =>
    obtain ⟨hc,hcs⟩ := List.forall_mem_cons.mp h
    have hexport : (r.merge c >>= r.exportMerged c) = r.exportClass c := rfl
    rw [exportAll,Asking.onRegistry,descriptor_of_registered hc,List.mapM_cons,hexport]
    cases r.exportClass c with
    | error e => rfl
    | ok v =>
      dsimp only
      rw [Asking.onRegistry_andThen,ih hcs]
      cases cs.mapM r.exportClass <;> rfl

/-- The export asks for every registered class once. -/
theorem exporting_onRegistry (r : Registry) : r.exporting.onRegistry r = r.toRecord := by
  rw [exporting,Asking.onRegistry_andThen,exportAll_onRegistry fun c => isRegistered_of_mem,toRecord]
  cases r.sortedClasses.mapM r.exportClass <;> rfl

theorem computeFingerprint_eq (r : Registry) : r.computeFingerprint = r.toRecord >>= digest := rfl

/-- A registration that is accepted was made before the registry was frozen, and freezes nothing. -/
def Registers (f : Registry → Except Error Registry) : Prop :=
  ∀ r r', f r = .ok r' → r.frozen = false ∧ r'.fingerprint = r.fingerprint

theorem checkMutable_eq_ok {attempt : Attempt} : r.checkMutable attempt = .ok ⟨⟩ ↔ r.frozen = false := by
  rw [checkMutable]
  cases r.frozen <;> simp

/-- What marking a class takes and changes. -/
theorem registerEntity_ok {cls : TypeExpr Value} {name : Option String} {embedded : Option Bool} {together : Value}
    {r' : Registry} (h : r.registerEntity cls name embedded together = .ok r') :
    ∃ c change, cls = .cls c ∧ r.frozen = false ∧ r' = { r with entities := fileUnder r.entities c {} change } := by
  cases cls with
  | cls c =>
    simp only [registerEntity] at h
    split at h
    · cases h
    · obtain ⟨groups,_,h⟩ := bind_eq_ok.mp h
      obtain ⟨_,hmutable,h⟩ := bind_eq_ok.mp h
      cases pure_eq_ok.mp h
      exact ⟨c,_,rfl,checkMutable_eq_ok.mp hmutable,rfl⟩
  | _ => cases h

theorem registers_entity (cls : TypeExpr Value) (name : Option String) (embedded : Option Bool) (together : Value) :
    Registers (·.registerEntity cls name embedded together) := by
  intro r r' h
  obtain ⟨c,change,_,hopen,rfl⟩ := registerEntity_ok h
  exact ⟨hopen,rfl⟩

theorem registers_entries (cls : TypeExpr Value) (key : Value) (es : List (Value × Value)) :
    Registers (·.registerEntries cls key es) := by
  intro r r' h
  obtain ⟨⟨c,key,o⟩,_,h⟩ := bind_eq_ok.mp h
  obtain ⟨_,hmutable,h⟩ := bind_eq_ok.mp h
  refine ⟨checkMutable_eq_ok.mp hmutable,?_⟩
  dsimp only at h
  split at h
  · split at h
    · cases h
    · cases pure_eq_ok.mp h
      rfl
  · cases pure_eq_ok.mp h
    rfl

theorem registers_relationship (cls : TypeExpr Value) (key : Value) (given : Given) :
    Registers (·.registerRelationship cls key given) := by
  intro r r' h
  obtain ⟨relationship,_,h⟩ := bind_eq_ok.mp h
  exact registers_entries cls key _ r r' h

/-- Declaring many properties freezes nothing; a frozen registry refuses the first of them. -/
theorem registerBulk_frozen (cls : TypeExpr Value) (properties : List (Value × Given)) (r : Registry) :
    (r.registerBulk cls properties).1.fingerprint = r.fingerprint ∧
      (r.frozen = true → (r.registerBulk cls properties).1 = r ∧
        ((r.registerBulk cls properties).2 = none → properties = [])) := by
  induction properties generalizing r with
  | nil => exact ⟨rfl,fun _ => ⟨rfl,fun _ => rfl⟩⟩
  | cons entry rest ih =>
    obtain ⟨key,given⟩ := entry
    rw [registerBulk]
    cases hproperty : r.registerProperty cls key given with
    | error e => exact ⟨rfl,fun _ => ⟨rfl,fun h => by (cases h)⟩⟩
    | ok r' =>
      obtain ⟨hopen,hfingerprint⟩ := registers_entries cls key given.entries r r' hproperty
      refine ⟨(ih r').1.trans hfingerprint,fun hfrozen => ?_⟩
      rw [hfrozen] at hopen
      cases hopen

theorem declareEntity_frozen (cls : TypeExpr Value) (name : Option String) (embedded : Option Bool) (together : Value)
    (properties : List (Value × Given)) (r : Registry) :
    (r.declareEntity cls name embedded together properties).1.fingerprint = r.fingerprint ∧
      (r.frozen = true → (r.declareEntity cls name embedded together properties).1 = r ∧
        (r.declareEntity cls name embedded together properties).2 ≠ none) := by
  rw [declareEntity]
  cases hentity : r.registerEntity cls name embedded together with
  | error e => exact ⟨rfl,fun _ => ⟨rfl,fun h => by (cases h)⟩⟩
  | ok r' =>
    obtain ⟨hopen,hfingerprint⟩ := registers_entity cls name embedded together r r' hentity
    refine ⟨(registerBulk_frozen cls properties r').1.trans hfingerprint,fun hfrozen => ?_⟩
    rw [hfrozen] at hopen
    cases hopen

end Registry

namespace Serving

variable {α β : Type} {s : CachedRegistry}

theorem run_bind (m : Serving α) (f : α → Serving β) (s : CachedRegistry) :
    (m >>= f).run s =
      match m.run s with
      | (.ok a, s') => (f a).run s'
      | (.error e, s') => (.error e, s') := by
  simp only [ExceptT.run,bind,ExceptT.bind,ExceptT.mk,StateT.bind]
  rcases m s with ⟨_ | _,_⟩ <;> rfl

theorem run_get (s : CachedRegistry) : (get : Serving CachedRegistry).run s = (.ok s, s) := rfl

theorem run_set (new s : CachedRegistry) : (set new : Serving PUnit).run s = (.ok ⟨⟩, new) := rfl

theorem run_ofExcept (x : Except Error α) (s : CachedRegistry) : (ofExcept x).run s = (x, s) := rfl

theorem run_consult (client : Asking α) (s : CachedRegistry) :
    (consult client).run s = (.ok (client.onCache s).1, (client.onCache s).2) := rfl

theorem run_change (f : Registry → Except Error Registry) (s : CachedRegistry) :
    (change f).run s =
      match f s.registry with
      | .ok r => (.ok ⟨⟩, { s with registry := r })
      | .error e => (.error e, s) := by
  simp only [change,run_bind,run_get,run_ofExcept]
  cases f s.registry <;> rfl

theorem run_changePartly (f : Registry → Registry × Option Error) (s : CachedRegistry) :
    (changePartly f).run s =
      (match (f s.registry).2 with
        | some e => .error e
        | none => .ok ⟨⟩, { s with registry := (f s.registry).1 }) := by
  simp only [changePartly,run_bind,run_get,run_set]
  cases (f s.registry).2 <;> rfl

/-- Through the cache, freezing does what it does on the registry itself; when it fails, it leaves no trace. -/
theorem run_freeze (h : s.Coherent) :
    freeze.run s =
      match s.registry.freeze with
      | .ok (fingerprint, r) => (.ok fingerprint, { s with registry := r })
      | .error e => (.error e, s) := by
  rw [Registry.freeze,Registry.computeFingerprint_eq]
  simp only [freeze,run_bind,run_get,run_ofExcept,run_consult]
  cases hfrozen : s.registry.frozen with
  | true =>
    rw [Registry.checkMutable,hfrozen]
    rfl
  | false =>
    -- a registry that is not frozen keeps nothing while it is read
    obtain ⟨hanswer,hextends⟩ := Asking.onCache_eq s.registry.exporting h
    rw [Registry.exporting_onRegistry] at hanswer
    rw [Registry.checkMutable_eq_ok.mpr hfrozen]
    dsimp only
    rw [hanswer,hextends.unfrozen hfrozen]
    rcases s.registry.toRecord with e | record
    · rfl
    · cases hdigest : Registry.digest record with
      | error e => simp only [hdigest,bind,Except.bind]
      | ok fingerprint =>
        simp only [hdigest,bind,Except.bind]
        rfl

end Serving

namespace Demand

variable {s : CachedRegistry} {q : Demand}

/-- Whether a demand replaced the registry by one that is frozen as it was; a frozen registry stays as it is, and
only the declaration of no properties is not refused. -/
structure Replaces (q : Demand) (s : CachedRegistry) (r : Registry) : Prop where
  after : q.after s = { s with registry := r }
  fingerprint : r.fingerprint = s.registry.fingerprint
  frozen : s.registry.frozen = true → r = s.registry ∧ ((q.serve.run s).1 = .ok ⟨⟩ → ∃ cls, q = .bulk cls [])

theorem replaces_change {f : Registry → Except Error Registry} (hserve : q.serve = Serving.change f)
    (hf : Registry.Registers f) (s : CachedRegistry) : ∃ r, q.Replaces s r := by
  have hrun := Serving.run_change f s
  rw [← hserve] at hrun
  cases hchange : f s.registry with
  | error e =>
    rw [hchange] at hrun
    refine ⟨s.registry,by rw [after,hrun],rfl,fun _ => ⟨rfl,fun hok => ?_⟩⟩
    rw [hrun] at hok
    cases hok
  | ok r =>
    rw [hchange] at hrun
    obtain ⟨hopen,hfingerprint⟩ := hf s.registry r hchange
    refine ⟨r,by rw [after,hrun],hfingerprint,fun hfrozen => ?_⟩
    rw [hfrozen] at hopen
    cases hopen

theorem replaces_changePartly (f : Registry → Registry × Option Error) (hserve : q.serve = Serving.changePartly f)
    (s : CachedRegistry) (hfingerprint : (f s.registry).1.fingerprint = s.registry.fingerprint)
    (hfrozen : s.registry.frozen = true → (f s.registry).1 = s.registry ∧
      ((f s.registry).2 = none → ∃ cls, q = .bulk cls [])) : ∃ r, q.Replaces s r := by
  have hrun := Serving.run_changePartly f s
  rw [← hserve] at hrun
  refine ⟨(f s.registry).1,by rw [after,hrun],hfingerprint,fun h => ⟨(hfrozen h).1,fun hok => (hfrozen h).2 ?_⟩⟩
  rw [hrun] at hok
  cases hfault : (f s.registry).2 with
  | none => rfl
  | some e =>
    rw [hfault] at hok
    cases hok

/-- Every kind of registration asks whether the registry is frozen. -/
theorem exists_replaces (hq : q.registers = true) (s : CachedRegistry) : ∃ r, q.Replaces s r := by
  cases q with
  | entity cls name embedded together =>
    exact replaces_change rfl (Registry.registers_entity cls name embedded together) s
  | property cls key given => exact replaces_change rfl (Registry.registers_entries cls key given.entries) s
  | relationship cls key given => exact replaces_change rfl (Registry.registers_relationship cls key given) s
  | bulk cls properties =>
    obtain ⟨hfingerprint,hfrozen⟩ := Registry.registerBulk_frozen cls properties s.registry
    refine replaces_changePartly (·.registerBulk cls properties) rfl s hfingerprint fun h =>
      ⟨(hfrozen h).1,fun hok => ⟨cls,?_⟩⟩
    rw [(hfrozen h).2 hok]
  | declaration cls name embedded together properties =>
    obtain ⟨hfingerprint,hfrozen⟩ :=
      Registry.declareEntity_frozen cls name embedded together properties s.registry
    exact replaces_changePartly (·.declareEntity cls name embedded together properties) rfl s hfingerprint fun h =>
      ⟨(hfrozen h).1,fun hok => absurd hok (hfrozen h).2⟩
  | freeze | reading => cases hq

theorem after_freeze (s : CachedRegistry) : after .freeze s = (Serving.freeze.run s).2 := by
  change ((Serving.freeze >>= fun _ => pure ⟨⟩ : Serving Unit).run s).2 = _
  rw [Serving.run_bind]
  rcases Serving.freeze.run s with ⟨_ | _,_⟩ <;> rfl

/-- A demand leaves a coherent cache, and a frozen registry as it is. -/
theorem after_coherent (h : s.Coherent) (q : Demand) :
    (q.after s).Coherent ∧ (s.registry.frozen = true → (q.after s).registry = s.registry) := by
  cases hq : q.registers with
  | true =>
    obtain ⟨r,hafter,hfingerprint,hfrozen⟩ := exists_replaces hq s
    rw [hafter]
    cases hopen : s.registry.frozen with
    | true =>
      rw [(hfrozen hopen).1]
      exact ⟨h,fun _ => rfl⟩
    | false =>
      rw [h.empty hopen]
      exact ⟨CachedRegistry.coherent_new r,fun h => by cases h⟩
  | false =>
    cases q with
    | freeze =>
      rw [after_freeze,Serving.run_freeze h]
      cases hfreeze : s.registry.freeze with
      | error e => exact ⟨h,fun _ => rfl⟩
      | ok answer =>
        obtain ⟨fingerprint,r⟩ := answer
        obtain ⟨hopen,_,rfl⟩ := Registry.freeze_eq_ok.mp hfreeze
        dsimp only
        rw [h.empty hopen]
        exact ⟨CachedRegistry.coherent_new _,fun hfrozen => by rw [hopen] at hfrozen; cases hfrozen⟩
    | reading client =>
      obtain ⟨_,hextends⟩ := Asking.onCache_eq client h
      exact ⟨hextends.coherent,fun _ => hextends.registry⟩
    | _ => cases hq

end Demand

namespace CachedRegistry

variable {s : CachedRegistry}

theorem Coherent.run (h : s.Coherent) (demands : List Demand) :
    (s.run demands).Coherent ∧ (s.registry.frozen = true → (s.run demands).registry = s.registry) := by
  induction demands generalizing s with
  | nil => exact ⟨h,fun _ => rfl⟩
  | cons q rest ih =>
    obtain ⟨hcoherent,hsame⟩ := Demand.after_coherent h q
    obtain ⟨hrest,hrestSame⟩ := ih hcoherent
    refine ⟨hrest,fun hfrozen => ?_⟩
    have hlater : (q.after s).registry.frozen = true := by rwa [hsame hfrozen]
    exact (hrestSame hlater).trans (hsame hfrozen)

/-- What a registry is for good once it was frozen. -/
structure FrozenAs (r : Registry) (fingerprint : String) (s : CachedRegistry) : Prop where
  /-- what was registered, under the fingerprint -/
  contents : s.registry = r.withFingerprint (some fingerprint)
  /-- every registration leaves it and is refused, unless it declares nothing -/
  refuses : ∀ q : Demand, q.registers = true → q.after s = s ∧ ((q.serve.run s).1 = .ok ⟨⟩ → ∃ cls, q = .bulk cls [])
  refusesFreezing : Serving.freeze.run s = (.error (.frozen .freeze), s)
  lookups : s.registry.classes = r.classes ∧ s.registry.isRegistered = r.isRegistered ∧
    s.registry.nameOf = r.nameOf ∧ s.registry.lookup? = r.lookup?
  /-- registered classes have descriptors and their links have targets, the same as merging and resolving gave -/
  registered : ∀ c ∈ r.classes, ∃ d, r.merge c = .ok d ∧ (s.descriptor (.cls c)).1 = .ok d ∧
    ∀ p ∈ d.properties, p.relationship.isSome = true → ∃ target,
      r.resolveProperty c p = .ok target ∧ s.registry.resolveProperty c p = .ok target
  /-- who asks for descriptors is answered as by merging, be they kept or not -/
  readings : ∀ {α : Type} (client : Asking α), (client.onCache s).1 = client.onRegistry r
  compiles : ∀ settings t maxDepth backend,
    Artifact.compile s.registry settings t maxDepth backend = Artifact.compile r settings t maxDepth backend
  /-- the fingerprint is that of the export -/
  digest : (s.registry.exporting.onCache s).1 >>= Registry.digest = .ok fingerprint

/-- Registries that can be exported have descriptors and targets for all that is registered. -/
theorem exported_complete {r : Registry} {record : Value} (h : r.toRecord = .ok record) {c : Class Value}
    (hc : c ∈ r.classes) : ∃ d, r.merge c = .ok d ∧
      ∀ p ∈ d.properties, p.relationship.isSome = true → ∃ target, r.resolveProperty c p = .ok target := by
  obtain ⟨entities,hentities,_⟩ := bind_eq_ok.mp h
  have hsorted : c ∈ r.sortedClasses := List.mem_mergeSort.mpr hc
  obtain ⟨v,_,hexport⟩ := exists_right_of_forall₂ (mapM_eq_ok.mp hentities) hsorted
  obtain ⟨d,properties,hmerge,hproperties,_⟩ := Registry.exportClass_ok hexport
  refine ⟨d,hmerge,fun p hp hlinked => ?_⟩
  obtain ⟨v,_,hproperty⟩ := exists_right_of_forall₂ (mapM_eq_ok.mp hproperties) hp
  obtain ⟨rest,hlink,_⟩ := Registry.exportProperty_ok hproperty
  cases hlink with
  | none hnone =>
    rw [hnone] at hlinked
    cases hlinked
  | @some rel target _ hrelationship htarget _ =>
    refine ⟨target,?_⟩
    rw [Registry.resolveProperty,hrelationship]
    exact htarget

/-- A coherent registry with the contents and the fingerprint of a frozen one. -/
theorem Coherent.frozenAs {r : Registry} {fingerprint : String} (h : s.Coherent)
    (hcontents : s.registry = r.withFingerprint (some fingerprint))
    (hfingerprint : r.computeFingerprint = .ok fingerprint) : FrozenAs r fingerprint s := by
  have hfrozen : s.registry.frozen = true := by
    rw [hcontents]
    rfl
  have hdescriptor (t : TypeExpr Value) : s.registry.descriptor t = r.descriptor t := by
    rw [hcontents,Registry.withFingerprint_descriptor]
  have hreadings {α : Type} (client : Asking α) : (client.onCache s).1 = client.onRegistry r := by
    rw [(Asking.onCache_eq client h).1]
    induction client with
    | answer a => rfl
    | ask cls next ih => rw [Asking.onRegistry,Asking.onRegistry,hdescriptor,ih]
  refine ⟨hcontents,fun q hq => ?_,?_,?_,fun c hc => ?_,hreadings,fun settings t maxDepth backend => ?_,?_⟩
  · obtain ⟨r',hafter,_,hsame⟩ := Demand.exists_replaces hq s
    rw [hafter,(hsame hfrozen).1]
    exact ⟨rfl,(hsame hfrozen).2⟩
  · have hfreeze : s.registry.freeze = .error (.frozen .freeze) := by
      rw [Registry.freeze,Registry.checkMutable,if_pos hfrozen]
      rfl
    rw [Serving.run_freeze h,hfreeze]
  · rw [hcontents]
    exact ⟨rfl,rfl,rfl,rfl⟩
  · obtain ⟨record,hrecord,_⟩ := bind_eq_ok.mp hfingerprint
    obtain ⟨d,hmerge,hresolve⟩ := exported_complete hrecord hc
    refine ⟨d,hmerge,?_,fun p hp hlinked => ?_⟩
    · rw [(h.descriptor (.cls c)).1,hdescriptor,
        Registry.descriptor_of_registered (Registry.isRegistered_of_mem (List.mem_mergeSort.mpr hc)),hmerge]
    · obtain ⟨target,htarget⟩ := hresolve p hp hlinked
      refine ⟨target,htarget,?_⟩
      rw [hcontents]
      exact htarget
  · rw [hcontents,Artifact.compile_withFingerprint]
  · rw [(Asking.onCache_eq s.registry.exporting h).1,Registry.exporting_onRegistry,hcontents,
      Registry.withFingerprint_toRecord]
    exact hfingerprint

/-- Whatever was done to a registry, freezing it fails without a trace or freezes it for good, whatever is done to
it later. -/
theorem frozen_for_good {before later : List Demand} {left : CachedRegistry} (hs : s = run {} before) :
    (∀ e, Serving.freeze.run s = (.error e, left) → left = s ∧
      (e ≠ .frozen .freeze → left.registry.frozen = false ∧ left.registry.fingerprint = none)) ∧
    ∀ fingerprint, Serving.freeze.run s = (.ok fingerprint, left) →
      FrozenAs s.registry fingerprint (left.run later) := by
  have hcoherent : s.Coherent := by
    rw [hs]
    exact ((coherent_new {}).run before).1
  rw [Serving.run_freeze hcoherent]
  cases hfreeze : s.registry.freeze with
  | error e =>
    refine ⟨fun e' h => ?_,fun fingerprint h => by (cases h)⟩
    cases h
    refine ⟨rfl,fun hother => ?_⟩
    cases hfrozen : s.registry.frozen with
    | true =>
      rw [Registry.freeze,Registry.checkMutable,if_pos hfrozen] at hfreeze
      exact absurd (Except.error.inj hfreeze).symm hother
    | false => exact ⟨rfl,Option.not_isSome_iff_eq_none.mp (Bool.eq_false_iff.mp hfrozen)⟩
  | ok answer =>
    obtain ⟨fingerprint,r⟩ := answer
    refine ⟨fun e h => by (cases h),fun fingerprint' h => ?_⟩
    cases h
    obtain ⟨hopen,hfingerprint,rfl⟩ := Registry.freeze_eq_ok.mp hfreeze
    have hleft : Coherent ⟨s.registry.withFingerprint (some fingerprint), s.merged⟩ := by
      rw [hcoherent.empty hopen]
      exact coherent_new _
    obtain ⟨hrun,hsame⟩ := hleft.run later
    exact hrun.frozenAs (hsame rfl) hfingerprint

/-- The demand to declare the next seat as a link. -/
def linkSeats : Demand :=
  .relationship (.cls Registry.seat) (.str "next") [("edge_type", .str "NEXT"), ("target", .type (.cls Registry.seat)),
    ("cardinality", .str "many-to-one"), ("owner", .bool true), ("join_columns", .list [.str "next_id"])]

/-- Seats are frozen for good, whatever is declared and asked afterwards. -/
theorem frozen_for_good_seats : ∃ fingerprint left,
    Serving.freeze.run (run {} [linkSeats]) = (.ok fingerprint, left) ∧
    FrozenAs (run {} [linkSeats]).registry fingerprint
      (left.run [.reading (.ask (.cls Registry.seat) fun _ => .answer ⟨⟩), linkSeats, .freeze]) := by
  obtain ⟨text,hseats⟩ := Registry.exists_seats_freeze
  have hrun : run {} [linkSeats] = ⟨Registry.seats [] "next_id", []⟩ := rfl
  have hfreeze := Serving.run_freeze (coherent_new (Registry.seats [] "next_id"))
  rw [(hseats [] "next_id" (.inl rfl)).2,← hrun] at hfreeze
  exact ⟨_,_,hfreeze,(frozen_for_good rfl).2 _ hfreeze⟩

end CachedRegistry

end Trischema
