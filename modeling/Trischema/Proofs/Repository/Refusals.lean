import Trischema.Proofs.Repository.Connections
import Trischema.Proofs.Repository.Preparing

/-!
Writes that are refused. When a write of an entity fails before the hook of the entity, in memory or in a table,
it leaves nothing behind: not in the store, not in the entity and its pending events, not with the publisher,
and no open transaction.
-/

namespace Trischema

namespace Object

variable {o o' : Object Value} {name : String} {world : World}

/-- An instance that was made as an entity, whatever was done with it since. -/
inductive MadeAsEntity : Object Value → Prop
  | construct {c : Class Value} {shared : List (String × Attribute Value)} {given : Given} {world : World}
      {o : Object Value} (hentity : c.nearest? [.entity, .enumeration] = some .entity)
      (h : ((c.construct shared given).runIn world).1 = .ok o) : MadeAsEntity o
  | set {o : Object Value} (h : MadeAsEntity o) (name : String) (v : Value) : MadeAsEntity (o.set name v)
  | share {o : Object Value} (h : MadeAsEntity o) (shared : List (String × Attribute Value)) :
      MadeAsEntity { o with shared }
  | call {o o' : Object Value} {name : String} {reply : Reply} {world : World} (h : MadeAsEntity o)
      (hcall : ((o.callMethod name).runIn world).1 = .ok (o', reply)) : MadeAsEntity o'
  | addEvent {o o' : Object Value} {name : Value} {payload : List (String × Value)} {world : World}
      (h : MadeAsEntity o) (hevent : ((o.addEvent name payload).runIn world).1 = .ok o') : MadeAsEntity o'

/-- Whether an instance has the time of its last change among its own attributes. -/
def Dated (o : Object Value) : Prop := (o.attrs.lookup "updated_at").isSome = true

theorem Dated.set (h : o.Dated) (name : String) (v : Value) : (o.set name v).Dated := by
  rw [Dated,Object.set,lookup_setNamed]
  split
  · rfl
  · exact h

theorem addEvent_attrs {name : Value} {payload : List (String × Value)}
    (h : ((o.addEvent name payload).runIn world).1 = .ok o') : o'.attrs = o.attrs := by
  obtain ⟨id,_,h⟩ := Action.bind_ok h
  obtain ⟨entityId,_,h⟩ := Action.bind_ok h
  split at h
  · cases h
  · cases h
    rfl

theorem record_attrs (h : ((o.record name).runIn world).1 = .ok o') : o'.attrs = o.attrs := by
  rw [record] at h
  split at h
  · exact addEvent_attrs h
  · cases h
  · cases h

/-- Calling a method leaves an instance as it is dated, or sets an attribute, or records and takes events. -/
theorem Dated.call {reply : Reply} (h : o.Dated)
    (hcall : ((o.callMethod name).runIn world).1 = .ok (o', reply)) : o'.Dated := by
  rw [callMethod] at hcall
  split at hcall
  · cases hcall
  · obtain ⟨v,_,hcall⟩ := Action.bind_ok hcall
    cases hcall
    exact h
  · obtain ⟨o'',ho,hcall⟩ := Action.bind_ok hcall
    cases hcall
    rw [countCall] at ho
    split at ho <;> cases ho <;> exact h.set _ _
  · split at hcall
    · obtain ⟨o'',ho,hcall⟩ := Action.bind_ok hcall
      cases hcall
      cases ho
      exact h.set _ _
    · obtain ⟨o'',ho,hcall⟩ := Action.bind_ok hcall
      cases hcall
      rwa [Dated,record_attrs ho]
    · obtain ⟨o'',ho,hcall⟩ := Action.bind_ok hcall
      cases hcall
      rwa [Dated,record_attrs ho]
    · obtain ⟨⟨o'',events⟩,ho,hcall⟩ := Action.bind_ok hcall
      cases hcall
      rw [pullEvents] at ho
      split at ho <;> cases ho
      exact h
    · cases hcall
      exact h
    · cases hcall
    · cases hcall
    · cases hcall

theorem dated_construct {c : Class Value} {shared : List (String × Attribute Value)} {given : Given}
    (hentity : c.nearest? [.entity, .enumeration] = some .entity)
    (h : ((c.construct shared given).runIn world).1 = .ok o) : o.Dated := by
  obtain ⟨attrs,hattrs,h⟩ := Action.bind_ok h
  obtain ⟨identity,_,h⟩ := Action.bind_ok h
  cases h
  rw [Class.initialAttributes,hentity] at hattrs
  obtain ⟨_,_,hattrs⟩ := Action.bind_ok hattrs
  dsimp only at hattrs
  split at hattrs
  all_goals
    obtain ⟨now,_,hattrs⟩ := Action.bind_ok hattrs
    cases hattrs
    rfl

theorem MadeAsEntity.dated (h : o.MadeAsEntity) : o.Dated := by
  induction h with
  | construct hentity h => exact dated_construct hentity h
  | set _ name v ih => exact ih.set name v
  | share _ _ ih => exact ih
  | call _ hcall ih => exact ih.call hcall
  | addEvent _ hevent ih => rwa [Dated,addEvent_attrs hevent]

/-- Setting an attribute back to what it was. -/
theorem setNamed_back {α : Type} {entries : List (String × α)} {name : String} {a : α} (b : α)
    (h : entries.lookup name = some a) : setNamed (setNamed entries name b) name a = entries := by
  induction entries with
  | nil => cases h
  | cons entry rest ih =>
    obtain ⟨k,c⟩ := entry
    by_cases hk : k = name
    · subst hk
      rw [List.lookup_cons,beq_self_eq_true] at h
      cases h
      simp [setNamed]
    · have hne : (name == k) = false := beq_eq_false_iff_ne.mpr (Ne.symm hk)
      rw [List.lookup_cons,hne] at h
      simp [setNamed,hk,ih h]

theorem set_back {a : Value} (b : Value) (h : o.attrs.lookup name = some a) : (o.set name b).set name a = o := by
  simp only [Object.set,setNamed_back b h]

end Object

namespace Write

variable {σ α : Type} {w : Writing σ} {o : Object Value}

/-- A touched entity gets the time of the clock. -/
theorem runOn_touch (ho : w.entity = .object o) (htouch : o.attribute? Hook.touch.name = some (.hook .touch)) :
    runOn (callIfAny Hook.touch.name) w = (.ok (some (.value .null)),
      { w with entity := .object (o.set "updated_at" (.moment w.world.clock)) }) := by
  have hcan : canCall w.entity Hook.touch.name = true := by
    rw [ho]
    change (o.value? Hook.touch.name).any Value.isCallable = true
    rw [Object.value?,htouch]
    rfl
  have hcall : (o.callMethod Hook.touch.name).runIn w.world =
      (.ok (o.set "updated_at" (.moment w.world.clock), .value .null), w.world) := by
    rw [Object.callMethod,htouch]
    rfl
  rw [runOn_callIfAny,hcan,if_pos rfl,runOn_call,ho]
  dsimp only
  rw [hcall]
  rfl

/-- A write that changes nothing but the world. -/
def Reads (m : Write σ α) : Prop := ∀ w, ∃ world, (runOn m w).2 = { w with world }

/-- When a write fails, it leaves everything but the world as it was. -/
def FailsClean (m : Write σ α) (w : Writing σ) : Prop :=
  ∀ e, (runOn m w).1 = .error e → ∃ world, (runOn m w).2 = { w with world }

theorem runOn_bind_error {β : Type} {m : Write σ α} {f : α → Write σ β} {e : Error} {v : Writing σ}
    (hfail : (runOn m w).1 = .error e) (hleft : (runOn m w).2 = v) : runOn (m >>= f) w = (.error e, v) := by
  rw [runOn_bind]
  rcases hrun : runOn m w with ⟨_ | a,w'⟩ <;> rw [hrun] at hfail hleft
  · cases hfail
    rw [← hleft]
  · cases hfail

theorem reads_record : Reads (record : Write σ Record) := fun w => ⟨_,by rw [runOn_record]⟩

theorem reads_get : Reads (get : Write σ (Writing σ)) := fun w => ⟨w.world,rfl⟩

theorem reads_ofExcept (x : Except Error α) : Reads (ofExcept x : Write σ α) := fun w => ⟨w.world,rfl⟩

theorem reads_entityId : Reads (entityId : Write σ String) := fun w => ⟨w.world,by rw [runOn_entityId]⟩

theorem Reads.failsClean {m : Write σ α} (h : Reads m) : FailsClean m w := fun _ _ => h w

/-- After reading, what fails cleanly does so from the start. -/
theorem Reads.bind {β : Type} {m : Write σ α} {f : α → Write σ β} (h : Reads m)
    (hf : ∀ a world, (runOn m w) = (.ok a, { w with world }) → FailsClean (f a) { w with world }) :
    FailsClean (m >>= f) w := by
  intro e hfail
  obtain ⟨world,hworld⟩ := h w
  rw [runOn_bind] at hfail ⊢
  rcases hrun : runOn m w with ⟨_ | a,w'⟩ <;> rw [hrun] at hfail hworld <;> dsimp only at hfail hworld ⊢
  · exact ⟨world,hworld⟩
  · subst hworld
    exact hf a world hrun e hfail

theorem Reads.bind_reads {β : Type} {m : Write σ α} {f : α → Write σ β} (h : Reads m) (hf : ∀ a, Reads (f a)) :
    Reads (m >>= f) := by
  intro w
  obtain ⟨world,hworld⟩ := h w
  rw [runOn_bind]
  rcases hrun : runOn m w with ⟨_ | a,w'⟩ <;> rw [hrun] at hworld <;> dsimp only at hworld ⊢
  · exact ⟨world,hworld⟩
  · obtain ⟨world',hworld'⟩ := hf a w'
    exact ⟨world',by rw [hworld',hworld]⟩

/-- After what fails cleanly, what cannot fail does not matter. -/
theorem FailsClean.bind {β : Type} {m : Write σ α} {f : α → Write σ β} (h : FailsClean m w)
    (hf : ∀ a v e, (runOn (f a) v).1 ≠ .error e) : FailsClean (m >>= f) w := by
  intro e hfail
  have hclean := h e
  rw [runOn_bind] at hfail ⊢
  rcases hrun : runOn m w with ⟨_ | a,w'⟩ <;> rw [hrun] at hfail hclean <;> dsimp only at hfail hclean ⊢
  · cases hfail
    exact hclean rfl
  · exact absurd hfail (hf a w' e)

/-- A change of a touched entity fails cleanly when the change itself only reads. -/
theorem failsClean_touched {change : Write σ α} (ho : w.entity = .object o) (hdated : o.Dated)
    (htouch : o.attribute? Hook.touch.name = some (.hook .touch)) (hchange : Reads change) :
    FailsClean (touched change) w := by
  intro e hfail
  obtain ⟨world,hworld⟩ := hchange { w with entity := .object (o.set "updated_at" (.moment w.world.clock)) }
  rw [runOn_touched,runOn_touch ho htouch] at hfail ⊢
  dsimp only at hfail ⊢
  rcases hrun : runOn change { w with entity := .object (o.set "updated_at" (.moment w.world.clock)) } with ⟨result,w'⟩
  rw [hrun] at hfail hworld
  cases result with
  | ok a => cases hfail
  | error e' =>
    obtain ⟨v,hv⟩ := Option.isSome_iff_exists.mp hdated
    dsimp only at hworld ⊢
    subst hworld
    have hprevious : w.entity.attributeOrNull "updated_at" = v := by
      rw [ho]
      change ((o.attribute? "updated_at").map _).getD _ = v
      rw [Object.attribute?,hv]
      rfl
    have hthere : ((o.set "updated_at" (.moment w.world.clock)).attribute? "updated_at").isSome = true := by
      rw [Object.attribute?,Object.set,Object.lookup_setNamed,if_pos rfl]
      rfl
    refine ⟨world,?_⟩
    simp only [Option.isSome_some,if_true,restore,hthere,hprevious,Object.set_back _ hv,← ho]

end Write

namespace Adapter

open Write

variable {σ : Type} {a : Adapter σ} {op : Operation} {w : Writing σ} {o : Object Value} {e : Error}

/-- Storing that fails leaves everything but the world as it was. -/
theorem storing_failsClean (a : Adapter σ) (op : Operation) (ho : w.entity = .object o) (hdated : o.Dated)
    (htouch : o.attribute? Hook.touch.name = some (.hook .touch)) : FailsClean (a.storing op) w := by
  have hkeep : ∀ (store : σ) v e, (runOn (keep store) v).1 ≠ .error e := fun _ _ _ h => by cases h
  cases op with
  | insert =>
    refine reads_entityId.bind fun id _ _ => reads_record.bind fun record _ _ => reads_get.bind fun v _ _ => ?_
    exact FailsClean.bind (reads_ofExcept _).failsClean hkeep
  | update =>
    refine reads_entityId.bind fun id _ _ => reads_get.bind fun v _ _ => (reads_ofExcept _).bind fun _ _ _ => ?_
    refine FailsClean.bind (failsClean_touched ho hdated htouch ?_) hkeep
    exact reads_record.bind_reads fun _ => reads_ofExcept _
  | delete =>
    refine reads_entityId.bind fun id _ _ => reads_get.bind fun v _ _ => ?_
    exact FailsClean.bind (reads_ofExcept _).failsClean hkeep

end Adapter

namespace Call

open Write

variable {σ : Type} {writes : Operation → Write σ Unit} {call : Call} {opened : Repository × σ} {e : Error}

/-- Whether a call fails and leaves nothing behind but the progress of the world. -/
structure LeavesNoTrace (writes : Operation → Write σ Unit) (call : Call) (opened : Repository × σ) (e : Error) :
    Prop where
  /-- the instance, what was published and the store are what they were -/
  clean : ∃ world, runOn (writes call.operation) (call.writing opened) = (.error e, { call.writing opened with world })
  /-- what is written later is answered as if there had been no such call -/
  later : ∀ next : Call, next.on writes (call.on writes opened).2 = next.on writes opened

theorem leavesNoTrace
    (h : ∃ world, runOn (writes call.operation) (call.writing opened) = (.error e, { call.writing opened with world })) :
    LeavesNoTrace writes call opened e := by
  refine ⟨h,fun next => ?_⟩
  obtain ⟨world,hrun⟩ := h
  have hleft : (call.on writes opened).2 = opened := by
    rw [on,hrun]
    rfl
  rw [hleft]

/-- A write of an entity that fails before its hook leaves no trace: neither on records in memory nor on the rows
of a table, whatever was written before, and it leaves no transaction open. -/
theorem refused_leaves_no_trace {o : Object Value} (hmade : o.MadeAsEntity)
    (htouch : o.attribute? Hook.touch.name = some (.hook .touch)) (hentity : call.entity = .object o) :
    (∀ r earlier opened, opened = run Operation.onRecords (r, []) earlier →
      (runOn (Records.adapter.storing call.operation) (call.writing opened)).1 = .error e →
        LeavesNoTrace Operation.onRecords call opened e) ∧
    ∀ (b : TableBinding) r db earlier opened, opened = run (·.onConnection b) (r, .opened db) earlier →
      (runOn (call.operation.storingThrough b) (call.writing opened)).1 = .error e →
        LeavesNoTrace (·.onConnection b) call opened e ∧ opened.2.isIdle = true := by
  constructor
  · intro r earlier opened _ hfail
    obtain ⟨world,hclean⟩ := Adapter.storing_failsClean Records.adapter call.operation hentity hmade.dated htouch e
      hfail
    refine leavesNoTrace ⟨world,?_⟩
    rw [Operation.onRecords_eq_storing]
    exact runOn_bind_error hfail hclean
  · intro b r db earlier opened hopened hfail
    rw [run_connected] at hopened
    subst hopened
    refine ⟨?_,rfl⟩
    have hconnected : call.writing ((run (·.onRows b) (r, db) earlier).1, .opened (run (·.onRows b) (r, db) earlier).2) =
        (call.writing (run (·.onRows b) (r, db) earlier)).connected := rfl
    rw [hconnected,runOn_storingThrough] at hfail
    dsimp only at hfail
    obtain ⟨world,hclean⟩ := Adapter.storing_failsClean b.adapter call.operation hentity hmade.dated htouch e hfail
    have hwrite := runOn_onConnection_connected b call.operation (call.writing (run (·.onRows b) (r, db) earlier))
    rw [← Adapter.write_rows,Adapter.write_eq_storing,runOn_bind_error hfail hclean] at hwrite
    exact leavesNoTrace ⟨world,hwrite⟩

/-- A kind of entity. -/
def draft : Class Value := ⟨.defined "Draft" 0 [.builtin .entity, .builtin .object], none⟩

/-- The update of a new draft. -/
def updateDraft (o : Object Value) : Call := ⟨.update, .object o, { clock := default }⟩

/-- A new draft with the repository of drafts and the table for them. -/
def drafts : Except Error (Object Value × Repository × TableBinding × Database) := do
  let registry ← ({} : Registry).registerProperty (.cls draft) (.str "title") [("type", .type (.builtin .text))]
  let d ← registry.descriptor (.cls draft)
  let schema ← (Relational.compile registry (.ok Settings.defaults) (.cls draft) none 0).result
  let b ← TableBinding.ofSchema d schema
  let r ← Repository.ofDescriptor d none
  let db ← b.definition.create []
  let o ← ((draft.construct (Builtin.entity.hooks.map fun h => (h.name, .hook h)) [("id", .str "1")]).runIn
    { clock := default }).1
  return (o, r, b, db)

theorem construct_of_drafts {o : Object Value} {r : Repository} {b : TableBinding} {db : Database}
    (h : drafts = .ok (o, r, b, db)) :
    ((draft.construct (Builtin.entity.hooks.map fun h => (h.name, .hook h)) [("id", .str "1")]).runIn
      { clock := default }).1 = .ok o := by
  obtain ⟨registry,_,h⟩ := bind_eq_ok.mp h
  obtain ⟨_,_,_,_,_,_,_,_,_,_,h⟩ := TableBinding.exists_created h
  obtain ⟨o,ho,h⟩ := bind_eq_ok.mp h
  cases pure_eq_ok.mp h
  exact ho

/-- Whether an instance has the hook that entities are touched with. -/
def hasTouch (o : Object Value) : Bool :=
  match o.attribute? Hook.touch.name with
  | some (.hook .touch) => true
  | _ => false

theorem eq_of_hasTouch {o : Object Value} (h : hasTouch o = true) : o.attribute? Hook.touch.name = some (.hook .touch) := by
  unfold hasTouch at h
  split at h
  · assumption
  · cases h

/-- Whether the draft that was to be updated was not there. -/
def isMissing : Except Error Unit → Bool
  | .error (.notFound "Draft" "1" .update) => true
  | _ => false

theorem eq_of_isMissing {answer : Except Error Unit} (h : isMissing answer = true) :
    answer = .error (.notFound "Draft" "1" .update) := by
  unfold isMissing at h
  split at h
  · rfl
  · cases h

/-- The update of a draft that was never stored. -/
theorem refused_leaves_no_trace_missing : ∃ o r b db, drafts = .ok (o, r, b, db) ∧
    LeavesNoTrace Operation.onRecords (updateDraft o) (r, []) (.notFound "Draft" "1" .update) ∧
    LeavesNoTrace (·.onConnection b) (updateDraft o) (r, .opened db) (.notFound "Draft" "1" .update) := by
  have hok : (drafts.toOption.any fun made =>
      hasTouch made.1 &&
      isMissing (runOn (Records.adapter.storing .update) ((updateDraft made.1).writing (made.2.1, []))).1 &&
      isMissing (runOn (Operation.update.storingThrough made.2.2.1)
        ((updateDraft made.1).writing (made.2.1, .opened made.2.2.2))).1) = true := by
    decide +kernel
  obtain ⟨⟨o,r,b,db⟩,hdrafts,h⟩ := exists_ok_of_any hok
  simp only [Bool.and_eq_true] at h
  obtain ⟨⟨htouch,hrecords⟩,hrows⟩ := h
  have hmade : o.MadeAsEntity := .construct (by decide) (construct_of_drafts hdrafts)
  have htouch := eq_of_hasTouch htouch
  refine ⟨o,r,b,db,hdrafts,?_,?_⟩
  · exact (refused_leaves_no_trace hmade htouch rfl).1 r [] (r, []) rfl (eq_of_isMissing hrecords)
  · exact ((refused_leaves_no_trace hmade htouch rfl).2 b r db [] (r, .opened db) rfl (eq_of_isMissing hrows)).1

end Call

end Trischema
