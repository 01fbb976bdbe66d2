import Trischema.Proofs.Registry.LeftOut
import Trischema.Proofs.Registry.Commuting
import Trischema.Proofs.Registry.Writing

/-!
What merging reads of a registry: what stands under the names of a lineage, and which classes are registered. A
registration outside of the lineage can add to the latter alone, and the class is described as it was.
-/

namespace Trischema

/-- Whether a class has a name, or inherits from the class that has it. -/
def Class.IsBelow (c : Class Value) (name : ClassName) : Prop := name = c.name ∨ name ∈ c.lineage

namespace Registry

variable {r r' r'' : Registry} {c d : Class Value}

/-- Registries that hold the same of a class and its ancestors, where the second has registered all that the first has. -/
structure GrowsBeside (c : Class Value) (r r' : Registry) : Prop where
  under : ∀ name, c.IsBelow name → r'.under name = r.under name
  registered : ∀ d, r.isRegistered d = true → r'.isRegistered d = true

namespace GrowsBeside

theorem refl (c : Class Value) (r : Registry) : GrowsBeside c r r := ⟨fun _ _ => rfl,fun _ h => h⟩

theorem trans (h : GrowsBeside c r r') (h' : GrowsBeside c r' r'') : GrowsBeside c r r'' where
  under name hname := (h'.under name hname).trans (h.under name hname)
  registered d hd := h'.registered d (h.registered d hd)

variable (h : GrowsBeside c r r')

include h

theorem registration : r'.registration c = r.registration c := by
  rw [Registry.registration,Registry.registration,filed?_eq,filed?_eq]
  exact congrArg (fun held => ((Holding.marked held).map (·.2)).getD {}) (h.under c.name (.inl rfl))

theorem nameOf : r'.nameOf c = r.nameOf c := by
  rw [Registry.nameOf,Registry.nameOf,h.registration]

theorem isEmbedded : r'.isEmbedded c = r.isEmbedded c := by
  rw [Registry.isEmbedded,Registry.isEmbedded,h.registration]

/-- Each class of the lineage contributes what it did. -/
theorem folded : r'.folded c = r.folded c := by
  rw [Registry.folded,Registry.folded]
  refine List.foldl_ext _ _ _ fun table name hname => ?_
  have hunder := h.under name (.inr (List.mem_reverse.mp hname))
  rw [contribute,contribute,declared_eq,declared_eq,hunder]

theorem isEmbeddable (hd : r.isEmbeddable d = true) : r'.isEmbeddable d = true := by
  rw [Registry.isEmbeddable,Bool.or_eq_true] at hd ⊢
  exact hd.imp id (h.registered d)

theorem property {key : String} {o : Options} {p : Property} (hp : r.property c key o = .ok p) :
    r'.property c key o = .ok p := by
  obtain ⟨k,hk,rfl⟩ := property_ok hp
  have hk' : r'.classify c key o = .ok k := by
    rw [classify,Classification.ofProperty_wider (fun d => h.isEmbeddable) (ofProperty_of_classify hk)]
  rw [Registry.property,hk']
  rfl

theorem properties {table : OptionTable} {ps : List Property} (hps : r.properties c table = .ok ps) :
    r'.properties c table = .ok ps := by
  induction table generalizing ps with
  | nil => exact hps
  | cons entry rest ih =>
    rw [Registry.properties] at hps ⊢
    obtain ⟨p,hp,hps⟩ := bind_eq_ok.mp hps
    obtain ⟨rest',hrest,hps⟩ := bind_eq_ok.mp hps
    rw [h.property hp,ok_bind,ih hrest,ok_bind]
    exact hps

/-- A class that was merged is merged alike. -/
theorem merge {d : Descriptor} (hd : r.merge c = .ok d) : r'.merge c = .ok d := by
  obtain ⟨table,merged⟩ := merge_cases hd
  have hmerged : Merged r' c table d := by
    refine ⟨?_,?_,?_,merged.cls,?_,?_,?_⟩
    · rw [h.folded]
      exact merged.settled
    · rw [h.isEmbedded]
      exact h.properties merged.properties
    · rw [h.nameOf,h.registration]
      exact merged.together
    · exact merged.name.trans h.nameOf.symm
    · exact merged.embedded.trans h.isEmbedded.symm
    · exact merged.groups.trans (congrArg _ h.registration.symm)
  exact merge_of_merged hmerged

theorem descriptor {d : Descriptor} (hd : r.descriptor (.cls c) = .ok d) : r'.descriptor (.cls c) = .ok d := by
  rw [descriptor_of_registered (h.registered c (isRegistered_of_descriptor hd))]
  exact h.merge (descriptor_registered hd)

end GrowsBeside

theorem filed?_isSome_fileUnder {β : Type} {table : List (Class Value × β)} {new : β} {change : β → β}
    {name : ClassName} (h : (filed? table name).isSome = true) :
    (filed? (fileUnder table d new change) name).isSome = true := by
  rw [filed?_eq,Option.isSome_map] at h ⊢
  rw [filing?_fileUnder]
  split
  · rfl
  · exact h

end Registry

namespace RegistryCall

open Registry

variable {call : RegistryCall} {r r' : Registry} {c d : Class Value}

/-- The class that a call is made for, if it is one. -/
def target : RegistryCall → Option ClassName
  | entity cls .. | property cls .. | relationship cls .. => targetOf cls

theorem declare_registered {cls : TypeExpr Value} {key : Value} {es : List (Value × Value)}
    (h : r.registerEntries cls key es = .ok r') (hd : r.isRegistered d = true) : r'.isRegistered d = true := by
  rw [registerEntries_eq] at h
  obtain ⟨⟨_,_,_⟩,_,h⟩ := bind_eq_ok.mp h
  obtain ⟨_,_,h⟩ := bind_eq_ok.mp h
  cases h
  rw [isRegistered,Bool.or_eq_true] at hd ⊢
  exact hd.imp id filed?_isSome_fileUnder

theorem mark_registered {cls : TypeExpr Value} {name : Option String} {embedded : Option Bool} {together : Value}
    (h : r.registerEntity cls name embedded together = .ok r') (hd : r.isRegistered d = true) :
    r'.isRegistered d = true := by
  obtain ⟨c,change,_,_,rfl⟩ := registerEntity_ok h
  rw [isRegistered,Bool.or_eq_true] at hd ⊢
  exact hd.imp filed?_isSome_fileUnder id

/-- A call for a class outside of a lineage leaves what is held of the lineage, and nothing that was registered is lost. -/
theorem outcome_beside (hcall : ∀ name, call.target = some name → ¬c.IsBelow name) (h : call.outcome r = .ok r') :
    GrowsBeside c r r' := by
  have hothers {keys : List String} {f : Registry → Except Error Registry}
      (hf : Step.Concerns call.target keys (Step.whole f)) (h : f r = .ok r') (name : ClassName)
      (hname : c.IsBelow name) : r'.under name = r.under name := by
    have hunder := hf.others r name fun htarget => hcall name htarget.symm hname
    rw [Step.whole,h] at hunder
    exact hunder
  cases call with
  | entity cls name embedded together =>
    exact ⟨hothers (concerns_entity cls name embedded together) h,fun d => mark_registered h⟩
  | property cls key options named =>
    obtain ⟨given,_,h⟩ := bind_eq_ok.mp h
    exact ⟨hothers (concerns_property cls key given) h,fun d => declare_registered h⟩
  | relationship cls key options named =>
    obtain ⟨relationship,_,h⟩ := bind_eq_ok.mp h
    exact ⟨hothers (concerns_property cls key _) h,fun d => declare_registered h⟩

theorem outcome_registers (call : RegistryCall) : Registers call.outcome := by
  intro r r' h
  cases call with
  | entity cls name embedded together => exact registers_entity cls name embedded together r r' h
  | property cls key options named =>
    obtain ⟨es,_,h⟩ := bind_eq_ok.mp h
    exact registers_entries cls key es r r' h
  | relationship cls key options named =>
    obtain ⟨relationship,_,h⟩ := bind_eq_ok.mp h
    exact registers_entries cls key _ r r' h

/-- Calls leave a coherent cache: one that is accepted was made when nothing was kept yet. -/
theorem each_coherent {s : CachedRegistry} (h : s.Coherent) (calls : List RegistryCall) :
    ((each calls).run s).2.Coherent := by
  induction calls generalizing s with
  | nil => exact h
  | cons call rest ih =>
    rw [each_cons,run_make,Serving.run_change]
    cases houtcome : call.outcome s.registry with
    | error e => exact h
    | ok r =>
      refine ih ?_
      rw [h.empty (call.outcome_registers _ _ houtcome).1]
      exact CachedRegistry.coherent_new r

theorem each_beside {calls : List RegistryCall}
    (hcalls : ∀ call ∈ calls, ∀ name, call.target = some name → ¬c.IsBelow name) (s : CachedRegistry) :
    GrowsBeside c s.registry ((each calls).run s).2.registry := by
  induction calls generalizing s with
  | nil => exact .refl c s.registry
  | cons call rest ih =>
    obtain ⟨hcall,hrest⟩ := List.forall_mem_cons.mp hcalls
    rw [each_cons,run_make,Serving.run_change]
    cases houtcome : call.outcome s.registry with
    | error e => exact .refl c s.registry
    | ok r => exact (outcome_beside hcall houtcome).trans (ih hrest { s with registry := r })

end RegistryCall

namespace Demand

open Registry RegistryCall

variable {q : Demand} {c : Class Value} {s : CachedRegistry}

/-- The single calls that a registration makes. -/
def calls : Demand → List RegistryCall
  | entity cls name embedded together => [.entity cls name embedded together]
  | property cls key given => [.property cls key (.record given) []]
  | relationship cls key given => [.relationship cls key (.record given) []]
  | bulk cls properties => RegistryCall.bulk cls (properties.map fun (key, given) => (key, .record given))
  | declaration cls name embedded together properties =>
    .entity cls name embedded together ::
      RegistryCall.bulk cls (properties.map fun (key, given) => (key, .record given))
  | freeze | reading _ => []

theorem calls_target : ∀ call ∈ q.calls, call.target = q.target := by
  have hbulk (cls : TypeExpr Value) (properties : List (Value × Given)) :
      ∀ call ∈ RegistryCall.bulk cls (properties.map fun (key, given) => (key, .record given)),
        call.target = targetOf cls := by
    intro call hcall
    obtain ⟨entry,_,rfl⟩ := List.mem_map.mp hcall
    rfl
  cases q with
  | entity | property | relationship => simp [calls,target,RegistryCall.target]
  | bulk cls properties => exact hbulk cls properties
  | declaration cls name embedded together properties =>
    exact List.forall_mem_cons.mpr ⟨rfl,hbulk cls properties⟩
  | freeze | reading => simp [calls]

/-- A registration is its calls, one after another. -/
theorem serve_calls (hq : q.registers = true) (s : CachedRegistry) : q.serve.run s = (each q.calls).run s := by
  have hone (call : RegistryCall) : (each [call]).run s = call.make.run s := by
    rw [each_cons]
    rcases call.make.run s with ⟨_ | _,_⟩ <;> rfl
  cases q with
  | entity cls name embedded together =>
    rw [calls,hone]
    exact (serve_make cls name embedded together (.str "") [] s).1
  | property cls key given =>
    rw [calls,hone]
    exact (serve_make cls none none (.list []) key given s).2.1
  | relationship cls key given =>
    rw [calls,hone]
    exact (serve_make cls none none (.list []) key given s).2.2
  | bulk cls properties => exact serve_bulk cls properties s
  | declaration cls name embedded together properties =>
    rw [calls,each_cons,run_make,Serving.run_change,outcome,serve,Serving.run_changePartly,declareEntity]
    cases s.registry.registerEntity cls name embedded together with
    | error e => rfl
    | ok r =>
      dsimp only
      rw [← serve_bulk,serve,Serving.run_changePartly]
  | freeze | reading => cases hq

theorem after_beside (hcoherent : s.Coherent) (hq : ∀ name, q.target = some name → ¬c.IsBelow name) :
    GrowsBeside c s.registry (q.after s).registry := by
  cases hregisters : q.registers with
  | true =>
    rw [after,serve_calls hregisters]
    refine each_beside (fun call hcall => ?_) s
    rw [calls_target call hcall]
    exact hq
  | false =>
    obtain ⟨fingerprint,hsame⟩ := after_unregistered hregisters hcoherent
    rw [hsame]
    exact ⟨fun _ _ => rfl,fun _ h => h⟩

end Demand

namespace CachedRegistry

open Registry RegistryCall

variable {s : CachedRegistry} {c : Class Value}

theorem run_beside {qs : List Demand} (hcoherent : s.Coherent)
    (hqs : ∀ q ∈ qs, ∀ name, q.target = some name → ¬c.IsBelow name) : GrowsBeside c s.registry (s.run qs).registry := by
  induction qs generalizing s with
  | nil => exact .refl c s.registry
  | cons q rest ih =>
    obtain ⟨hq,hrest⟩ := List.forall_mem_cons.mp hqs
    exact (Demand.after_beside hcoherent hq).trans (ih (Demand.after_coherent hcoherent q).1 hrest)

/-- A descriptor stays as it is, through the cache or not, whatever is registered of classes that are not in the lineage
of its class, be it accepted or refused, and whatever else is asked meanwhile. -/
theorem descriptor_stable {before : List Demand} {d : Descriptor} (hs : s = run {} before)
    (hd : (s.descriptor (.cls c)).1 = .ok d) :
    (∀ calls : List RegistryCall, (∀ call ∈ calls, ∀ name, call.target = some name → ¬c.IsBelow name) →
      (((each calls).run s).2.descriptor (.cls c)).1 = .ok d) ∧
    ∀ qs : List Demand, (∀ q ∈ qs, ∀ name, q.target = some name → ¬c.IsBelow name) →
      ((s.run qs).descriptor (.cls c)).1 = .ok d := by
  obtain ⟨hcoherent,_⟩ := coherent_tidy hs
  rw [(hcoherent.descriptor _).1] at hd
  constructor
  · intro calls hcalls
    rw [((each_coherent hcoherent calls).descriptor _).1]
    exact (each_beside hcalls s).descriptor hd
  · intro qs hqs
    rw [((hcoherent.run qs).1.descriptor _).1]
    exact (run_beside hcoherent hqs).descriptor hd

/-- Seats have parts, and a link to one of them. -/
def seatsOfParts : List Demand :=
  [nameParts, .property (.cls seat) (.str "parts") [("type", .type (.shorthand [.cls part]))],
    .relationship (.cls seat) (.str "back") [("edge_type", .str "BACK"), ("target", .type (.cls part))]]

/-- Parts are named anew, and get a property before something unknown is declared of them. -/
def renameParts : List Demand :=
  [.entity (.cls part) (some "Piece") (some true) (.list []),
    .bulk (.cls part) [(.str "size", [("type", .type (.builtin .integer))]), (.str "hue", [("colour", .str "red")])]]

theorem descriptor_stable_seats : ∃ d, ((run {} seatsOfParts).descriptor (.cls seat)).1 = .ok d ∧
    d.keys = ["id", "parts", "back"] ∧
    (run (run {} seatsOfParts) renameParts).registry.nameOf part = "Piece" ∧
    ((run {} (seatsOfParts ++ renameParts)).descriptor (.cls seat)).1 = .ok d := by
  obtain ⟨d,hd,hkeys⟩ := exists_ok_of_any (x := ((run {} seatsOfParts).descriptor (.cls seat)).1)
    (p := fun d => d.keys == ["id", "parts", "back"]) (by with_unfolding_all rfl)
  refine ⟨d,hd,beq_iff_eq.mp hkeys,by with_unfolding_all rfl,?_⟩
  obtain ⟨_,hseries⟩ := descriptor_stable rfl hd
  have hrun : run {} (seatsOfParts ++ renameParts) = (run {} seatsOfParts).run renameParts := List.foldl_append
  rw [hrun]
  refine hseries renameParts fun q hq name hname => ?_
  simp only [renameParts,List.mem_cons,List.not_mem_nil,or_false] at hq
  rcases hq with rfl | rfl <;> cases hname <;> simp [Class.IsBelow,Class.lineage,ClassName.lineage,seat,part]

end CachedRegistry

end Trischema
