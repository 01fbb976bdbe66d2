import Trischema.Proofs.Repository.Refusals

/-!
Recording events. An entity records an event behind those that are pending; storing it, in memory or in a table,
records and publishes none, and takes no time.
-/

namespace Trischema

namespace Action

variable {α β : Type}

/-- An action that leaves the clock. -/
def KeepsTime (m : Action α) : Prop := ∀ w, (runIn w m).2.clock = w.clock

theorem keepsTime_bind {m : Action α} {f : α → Action β} (hm : KeepsTime m) (hf : ∀ a, KeepsTime (f a)) :
    KeepsTime (m >>= f) := by
  intro w
  have h := hm w
  rw [runIn_bind]
  rcases hrun : runIn w m with ⟨e | a,w'⟩ <;> rw [hrun] at h
  · exact h
  · exact (hf a w').trans h

theorem keepsTime_pure (a : α) : KeepsTime (pure a) := fun _ => rfl

theorem keepsTime_ofExcept (x : Except Error α) : KeepsTime (ofExcept x) := fun _ => rfl

theorem keepsTime_clock : KeepsTime clock := fun _ => rfl

theorem keepsTime_newIdentifier : KeepsTime newIdentifier := fun _ => rfl

theorem keepsTime_newIdentity : KeepsTime newIdentity := fun _ => rfl

end Action

section Making

open Trischema.Action

theorem keepsTime_makeIdentifier (v : Value) : KeepsTime v.makeIdentifier := by
  have hnew : KeepsTime Value.makeIdentifier.newIdentifier :=
    keepsTime_bind keepsTime_newIdentifier fun _ => keepsTime_pure _
  rw [Value.makeIdentifier]
  split
  · split
    · exact hnew
    · exact keepsTime_pure _
  · split
    · exact keepsTime_pure _
    · exact hnew

theorem keepsTime_checkArguments (given : Given) (allowed : List String) :
    KeepsTime (Class.checkArguments given allowed) := by
  rw [Class.checkArguments]
  split
  · exact keepsTime_pure _
  · exact keepsTime_ofExcept _

theorem keepsTime_initialAttributes (c : Class Value) (given : Given) : KeepsTime (c.initialAttributes given) := by
  rw [Class.initialAttributes]
  split
  · refine keepsTime_bind (keepsTime_checkArguments _ _) fun _ => ?_
    dsimp only
    split
    · exact keepsTime_bind (keepsTime_ofExcept _) fun _ => keepsTime_bind keepsTime_clock fun _ => keepsTime_pure _
    · exact keepsTime_bind (keepsTime_makeIdentifier _) fun _ =>
        keepsTime_bind keepsTime_clock fun _ => keepsTime_pure _
  · refine keepsTime_bind (keepsTime_checkArguments _ _) fun _ => ?_
    split
    · exact keepsTime_pure _
    · exact keepsTime_ofExcept _
  · exact keepsTime_bind (keepsTime_checkArguments _ _) fun _ => keepsTime_pure _

theorem keepsTime_construct (c : Class Value) (shared : List (String × Attribute Value)) (given : Given) :
    KeepsTime (c.construct shared given) :=
  keepsTime_bind (keepsTime_initialAttributes c given) fun _ =>
    keepsTime_bind keepsTime_newIdentity fun _ => keepsTime_pure _

theorem keepsTime_instantiate (t : TypeExpr Value) : KeepsTime t.instantiate := by
  have hclass : ∀ c : Class Value, KeepsTime c.instantiate := by
    intro c
    rw [Class.instantiate]
    split
    all_goals first
      | exact keepsTime_pure _
      | exact keepsTime_ofExcept _
      | exact keepsTime_makeIdentifier _
      | skip
    split
    · exact keepsTime_ofExcept _
    · exact keepsTime_bind (keepsTime_construct c [] []) fun _ => keepsTime_pure _
  rw [TypeExpr.instantiate.eq_def]
  split
  · exact hclass _
  · exact keepsTime_ofExcept _
  · exact hclass _
  · exact keepsTime_ofExcept _

theorem keepsTime_produce (v : Value) : KeepsTime v.produce := by
  rw [Value.produce]
  split
  · rw [Value.call.eq_def]
    split
    · split
      all_goals first
        | exact keepsTime_pure _
        | exact keepsTime_ofExcept _
        | exact keepsTime_bind keepsTime_newIdentifier fun _ => keepsTime_pure _
    · exact keepsTime_instantiate _
    · exact keepsTime_ofExcept _
  · exact keepsTime_pure _

/-- No time passes while the record of an instance is made. -/
theorem keepsTime_record (d : Descriptor) (entity : Value) : KeepsTime (d.record entity) := by
  rw [Descriptor.record]
  induction d.properties with
  | nil => exact keepsTime_pure _
  | cons p rest ih =>
    have hvalue : KeepsTime (p.valueOf entity) := by
      rw [Property.valueOf.eq_def]
      dsimp only
      split
      · exact keepsTime_produce _
      · exact keepsTime_pure _
    exact keepsTime_bind hvalue fun _ => keepsTime_bind (keepsTime_ofExcept _) fun _ =>
      keepsTime_bind ih fun _ => keepsTime_pure _

end Making

namespace Object

variable {o o' o'' : Object Value} {world : World}

/-- Whether an instance is what another one was, but for the time of its last change. -/
structure SameButDate (o o' : Object Value) : Prop where
  cls : o'.cls = o.cls
  pending : o'.pending = o.pending
  attributes : ∀ name, name ≠ "updated_at" → o'.attribute? name = o.attribute? name

theorem SameButDate.refl (o : Object Value) : SameButDate o o := ⟨rfl,rfl,fun _ _ => rfl⟩

theorem SameButDate.trans (h : SameButDate o o') (h' : SameButDate o' o'') : SameButDate o o'' :=
  ⟨h'.cls.trans h.cls,h'.pending.trans h.pending,
    fun name hname => (h'.attributes name hname).trans (h.attributes name hname)⟩

theorem attribute?_set (o : Object Value) {name key : String} (v : Value) (hkey : key ≠ name) :
    (o.set name v).attribute? key = o.attribute? key := by
  simp only [attribute?,set,lookup_setNamed,if_neg hkey]

theorem SameButDate.date (o : Object Value) (v : Value) : SameButDate o (o.set "updated_at" v) :=
  ⟨rfl,rfl,fun _ hname => attribute?_set o v hname⟩

/-- Whether the events of an instance are recorded and taken as those of an entity are. -/
structure Announces (o : Object Value) : Prop where
  records : o.recordsEvents = true
  hooks : ∀ h ∈ Builtin.entity.hooks, o.attribute? h.name = some (.hook h)
  identified : ∃ s, o.attribute? "id" = some (.constant (.identifier s))

theorem Announces.same (h : o.Announces) (hsame : SameButDate o o') : o'.Announces := by
  obtain ⟨s,hid⟩ := h.identified
  refine ⟨?_,fun hook hhook => ?_,s,?_⟩
  · rw [recordsEvents,hsame.cls]
    exact h.records
  · rw [hsame.attributes hook.name (by revert hook; decide)]
    exact h.hooks hook hhook
  · rw [hsame.attributes "id" (by decide)]
    exact hid

theorem Announces.withPending (h : o.Announces) (pending : List (Event Value)) :
    { o with pending }.Announces := ⟨h.records,h.hooks,h.identified⟩

/-- What an instance records at a time. -/
def event (o : Object Value) (name : Value) (payload : List (String × Value)) (now : Moment) : Event Value :=
  ⟨name, o.cls.name.text, ((Value.object o).attributeOrNull "id").attributeOrNull "value", payload, now⟩

theorem event_same (hsame : SameButDate o o') (name : Value) (payload : List (String × Value)) (now : Moment) :
    o'.event name payload now = o.event name payload now := by
  have hid : (Value.object o').attributeOrNull "id" = (Value.object o).attributeOrNull "id" := by
    simp only [Value.attributeOrNull,Value.attribute?,value?,hsame.attributes "id" (by decide)]
  simp only [event,hsame.cls,hid]

/-- An event joins those that are pending. -/
theorem runIn_addEvent (h : o.Announces) (name : Value) (payload : List (String × Value)) :
    (o.addEvent name payload).runIn world =
      (.ok { o with pending := o.pending ++ [o.event name payload world.clock] }, world) := by
  obtain ⟨s,hid⟩ := h.identified
  have hvalue : o.value? "id" = some (.identifier s) := by
    rw [value?,hid]
    rfl
  have hgiven : (Value.object o).getAttribute "id" = .ok (.identifier s) := by
    simp only [Value.getAttribute,Value.attribute?,hvalue]
  have hevent : o.event name payload world.clock = ⟨name, o.cls.name.text, .str s, payload, world.clock⟩ := by
    simp only [event,Value.attributeOrNull,Value.attribute?,hvalue]
    rfl
  simp only [addEvent,hgiven,h.records,hevent]
  rfl

theorem runIn_record (h : o.Announces) (name : String) :
    (o.record name).runIn world =
      (.ok { o with pending := o.pending ++ [o.event (.str name) [] world.clock] }, world) := by
  have hhook := h.hooks .addEvent (by decide)
  rw [record,hhook]
  exact runIn_addEvent h (.str name) []

/-- A new entity records events, and has none. -/
theorem announces_construct {c : Class Value} {shared : List (String × Attribute Value)} {given : Given}
    (hentity : c.nearest? [.entity, .enumeration] = some .entity)
    (hshared : ∀ h ∈ Builtin.entity.hooks, shared.lookup h.name = some (.hook h))
    (h : ((c.construct shared given).runIn world).1 = .ok o) : o.Announces ∧ o.pending = [] := by
  obtain ⟨attrs,hattrs,h⟩ := Action.bind_ok h
  obtain ⟨identity,_,h⟩ := Action.bind_ok h
  cases h
  have hnames : ∃ s created updated, attrs =
      [("id", .identifier s), ("created_at", created), ("updated_at", updated)] := by
    rw [Class.initialAttributes,hentity] at hattrs
    obtain ⟨_,_,hattrs⟩ := Action.bind_ok hattrs
    dsimp only at hattrs
    split at hattrs
    · obtain ⟨id,hid,hattrs⟩ := Action.bind_ok hattrs
      obtain ⟨now,_,hattrs⟩ := Action.bind_ok hattrs
      cases hattrs
      have hparsed : ∃ s, id = .identifier s := by
        change Value.parseIdentifier _ = .ok id at hid
        rw [Value.parseIdentifier.eq_def] at hid
        split at hid
        · cases hid
          exact ⟨_,rfl⟩
        · split at hid <;> cases hid
          exact ⟨_,rfl⟩
        · cases hid
      obtain ⟨s,rfl⟩ := hparsed
      exact ⟨s,_,_,rfl⟩
    · obtain ⟨id,hid,hattrs⟩ := Action.bind_ok hattrs
      obtain ⟨now,_,hattrs⟩ := Action.bind_ok hattrs
      cases hattrs
      cases hid
      exact ⟨_,_,_,rfl⟩
  obtain ⟨s,created,updated,rfl⟩ := hnames
  refine ⟨⟨?_,fun hook hhook => ?_,s,rfl⟩,rfl⟩
  · rw [recordsEvents,hentity]
    rfl
  · have hown : [("id", .identifier s), ("created_at", created), ("updated_at", updated)].lookup hook.name =
        (none : Option Value) := by
      revert hook
      simp [Builtin.hooks,Hook.name]
    rw [attribute?,hown]
    exact hshared hook hhook

end Object

namespace Write

variable {σ α β : Type} {w w' w'' : Writing σ} {o : Object Value}

/-- Whether a write has an instance that is touched as an entity is. -/
def Touches (w : Writing σ) : Prop := ∃ o, w.entity = .object o ∧ o.attribute? Hook.touch.name = some (.hook .touch)

/-- What stays as it is until the hook of the instance is run: the repository, the time, and all of the instance
but the time of its last change. -/
structure Same (w w' : Writing σ) : Prop where
  repository : w'.repository = w.repository
  clock : w'.world.clock = w.world.clock
  entity : ∀ o, w.entity = .object o → ∃ o', w'.entity = .object o' ∧ o.SameButDate o'

theorem Same.refl (w : Writing σ) : Same w w := ⟨rfl,rfl,fun o ho => ⟨o,ho,.refl o⟩⟩

theorem Same.trans (h : Same w w') (h' : Same w' w'') : Same w w'' := by
  refine ⟨h'.repository.trans h.repository,h'.clock.trans h.clock,fun o ho => ?_⟩
  obtain ⟨o',ho',hsame⟩ := h.entity o ho
  obtain ⟨o'',ho'',hsame'⟩ := h'.entity o' ho'
  exact ⟨o'',ho'',hsame.trans hsame'⟩

theorem Same.touches (h : Same w w') (ht : Touches w) : Touches w' := by
  obtain ⟨o,ho,htouch⟩ := ht
  obtain ⟨o',ho',hsame⟩ := h.entity o ho
  exact ⟨o',ho',(hsame.attributes _ (by decide)).trans htouch⟩

/-- A write that records no event and publishes none, whether it fails or not. -/
def Silent (m : Write σ α) : Prop := ∀ w, Touches w → Same w (runOn m w).2

theorem silent_bind {m : Write σ α} {f : α → Write σ β} (hm : Silent m) (hf : ∀ a, Silent (f a)) :
    Silent (m >>= f) := by
  intro w ht
  have h := hm w ht
  rw [runOn_bind]
  rcases hrun : runOn m w with ⟨e | a,w'⟩ <;> rw [hrun] at h
  · exact h
  · exact h.trans (hf a w' (h.touches ht))

theorem silent_pure (a : α) : Silent (pure a : Write σ α) := fun w _ => .refl w

theorem silent_get : Silent (get : Write σ (Writing σ)) := fun w _ => .refl w

theorem silent_ofExcept (x : Except Error α) : Silent (ofExcept x : Write σ α) := fun w _ => .refl w

theorem silent_entityId : Silent (entityId : Write σ String) :=
  silent_bind silent_get fun _ => silent_ofExcept _

theorem silent_keep (store : σ) : Silent (keep store) := fun _ _ => ⟨rfl,rfl,fun o ho => ⟨o,ho,.refl o⟩⟩

theorem silent_record : Silent (record : Write σ Record) := by
  intro w _
  rw [runOn_record]
  exact ⟨rfl,keepsTime_record _ _ _,fun o ho => ⟨o,ho,.refl o⟩⟩

theorem silent_tryCatch {m : Write σ α} {handle : Error → Write σ α} (hm : Silent m)
    (hhandle : ∀ e, Silent (handle e)) : Silent (tryCatch m handle) := by
  intro w ht
  have h := hm w ht
  rw [runOn_tryCatch]
  rcases hrun : runOn m w with ⟨e | a,w'⟩ <;> rw [hrun] at h
  · exact h.trans (hhandle e w' (h.touches ht))
  · exact h

theorem same_restore (previous : Value) (ht : Touches w) : Same w (restore previous w) := by
  obtain ⟨o,ho,_⟩ := ht
  rw [restore,ho]
  dsimp only
  split
  · refine ⟨rfl,rfl,fun o' ho' => ?_⟩
    cases ho.symm.trans ho'
    exact ⟨_,rfl,.date o previous⟩
  · exact .refl w

/-- A change is silent, also with the instance touched. -/
theorem silent_touched {change : Write σ α} (hchange : Silent change) : Silent (touched change) := by
  intro w ht
  obtain ⟨o,ho,htouch⟩ := ht
  have hdated : Same w { w with entity := .object (o.set "updated_at" (.moment w.world.clock)) } := by
    refine ⟨rfl,rfl,fun o' ho' => ?_⟩
    cases ho.symm.trans ho'
    exact ⟨_,rfl,.date o _⟩
  have h := hchange _ (hdated.touches ⟨o,ho,htouch⟩)
  rw [runOn_touched,runOn_touch ho htouch]
  dsimp only
  rcases hrun : runOn change { w with entity := .object (o.set "updated_at" (.moment w.world.clock)) } with ⟨e | a,w'⟩ <;>
    rw [hrun] at h
  · have h := hdated.trans h
    exact h.trans (same_restore _ (h.touches ⟨o,ho,htouch⟩))
  · exact hdated.trans h

/-- What is done in memory before the hook is run is silent. -/
theorem silent_storing (a : Adapter σ) (op : Operation) : Silent (a.storing op) := by
  cases op with
  | insert =>
    exact silent_bind silent_entityId fun _ => silent_bind silent_record fun _ => silent_bind silent_get fun _ =>
      silent_bind (silent_ofExcept _) silent_keep
  | update =>
    refine silent_bind silent_entityId fun _ => silent_bind silent_get fun _ => silent_bind (silent_ofExcept _)
      fun _ => silent_bind (silent_touched ?_) silent_keep
    exact silent_bind silent_record fun _ => silent_ofExcept _
  | delete =>
    exact silent_bind silent_entityId fun _ => silent_bind silent_get fun _ =>
      silent_bind (silent_ofExcept _) silent_keep

theorem silent_onConnection (change : Connection → Except Error Connection) : Silent (onConnection change) :=
  silent_bind silent_get fun _ => silent_bind (silent_ofExcept _) silent_keep

theorem silent_execute (statement : Database → Except Error (α × Database)) : Silent (execute statement) :=
  silent_bind silent_get fun _ => silent_bind (silent_ofExcept _) fun _ =>
    silent_bind (silent_keep _) fun _ => silent_pure _

theorem silent_transaction {statements : Write Connection α} (h : Silent statements) :
    Silent (transaction statements) :=
  silent_bind (silent_onConnection _) fun _ => silent_tryCatch
    (silent_bind h fun _ => silent_bind (silent_onConnection _) fun _ => silent_pure _)
    fun _ => silent_bind (silent_onConnection _) fun _ => silent_ofExcept _

theorem silent_found (n : Nat) (e : Error) : Silent (if n = 0 then fail e else pure ⟨⟩ : Write σ Unit) := by
  split
  · exact silent_ofExcept _
  · exact silent_pure _

/-- So is what is done through a connection. -/
theorem silent_storingThrough (b : TableBinding) (op : Operation) : Silent (op.storingThrough b) := by
  cases op with
  | insert =>
    exact silent_bind silent_entityId fun _ => silent_bind silent_record fun _ => silent_bind silent_get fun _ =>
      silent_transaction (silent_execute _)
  | update =>
    refine silent_bind silent_entityId fun _ => silent_bind silent_get fun _ => silent_touched ?_
    exact silent_bind silent_record fun _ => silent_bind (silent_transaction (silent_execute _)) fun _ =>
      silent_found _ _
  | delete =>
    exact silent_bind silent_entityId fun _ => silent_bind silent_get fun _ => silent_bind (silent_execute _)
      fun _ => silent_found _ _

end Write

end Trischema
