import Trischema.Proofs.Lists
import Trischema.Proofs.Outcome
import Trischema.Proofs.Repository.Writing

/-!
What a write finds out about an instance before it goes to the store: the record has the properties of the
class in their order, and the identifier in it is the one that the instance is stored under, whatever the
hook of the instance did in between.
-/

namespace Trischema

namespace Action

variable {α β : Type}

theorem runIn_bind (m : Action α) (f : α → Action β) (w : World) :
    runIn w (m >>= f) =
      match runIn w m with
      | (.ok a, w') => runIn w' (f a)
      | (.error e, w') => (.error e, w') := by
  simp only [runIn,ExceptT.run,bind,ExceptT.bind,ExceptT.mk,ExceptT.bindCont,StateT.run,StateT.bind]
  rcases m w with ⟨_ | _,_⟩ <;> rfl

theorem bind_ok {m : Action α} {f : α → Action β} {w : World} {b : β} (h : (runIn w (m >>= f)).1 = .ok b) :
    ∃ a, (runIn w m).1 = .ok a ∧ (runIn (runIn w m).2 (f a)).1 = .ok b := by
  rw [runIn_bind] at h
  rcases hrun : runIn w m with ⟨e | a,w'⟩ <;> rw [hrun] at h
  · cases h
  · exact ⟨a,rfl,h⟩

end Action

/-- A value that a method of a domain base, or one that counts its calls, leaves in an instance. -/
def Value.IsMark (v : Value) : Prop := (∃ m, v = .moment m) ∨ (∃ n, v = .int n) ∨ ∃ x, v = .float x

namespace Object

variable {o o' : Object Value} {name : String} {world : World}

theorem lookup_setNamed {α : Type} (entries : List (String × α)) (name key : String) (a : α) :
    (setNamed entries name a).lookup key = if key = name then some a else entries.lookup key := by
  induction entries with
  | nil =>
    by_cases h : key = name
    · simp [setNamed,h]
    · simp [setNamed,List.lookup_cons,h,beq_eq_false_iff_ne.mpr h]
  | cons first rest ih =>
    obtain ⟨k,b⟩ := first
    rw [setNamed]
    split
    · rename_i hk
      by_cases h : key = name
      · simp [hk,h]
      · simp [hk,List.lookup_cons,h,beq_eq_false_iff_ne.mpr h]
    · rename_i hk
      by_cases h : key = k
      · simp [h,hk]
      · simp [List.lookup_cons,beq_eq_false_iff_ne.mpr h,ih]

theorem value?_set (o : Object Value) (name key : String) (v : Value) :
    (o.set name v).value? key = if key = name then some v else o.value? key := by
  by_cases h : key = name <;> simp [value?,attribute?,set,lookup_setNamed,h]

/-- Whether an instance has what another one has, but for marks. -/
def SameButMarks (o o' : Object Value) : Prop :=
  ∀ key, o'.value? key = o.value? key ∨ ∃ v, o'.value? key = some v ∧ v.IsMark

theorem same_set {v : Value} (hv : v.IsMark) : SameButMarks o (o.set name v) := by
  intro key
  rw [value?_set]
  split
  · exact .inr ⟨v,rfl,hv⟩
  · exact .inl rfl

theorem same_countCall (h : (o.countCall.runIn world).1 = .ok o') : SameButMarks o o' := by
  rw [countCall] at h
  split at h
  · cases h
    exact same_set (.inr (.inl ⟨_,rfl⟩))
  · cases h
    exact same_set (.inr (.inr ⟨_,rfl⟩))
  · cases h

theorem same_record (h : ((o.record name).runIn world).1 = .ok o') : SameButMarks o o' := by
  rw [record] at h
  split at h
  · obtain ⟨id,_,h⟩ := Action.bind_ok h
    obtain ⟨entityId,_,h⟩ := Action.bind_ok h
    split at h
    · cases h
    · cases h
      exact fun _ => .inl rfl
  · cases h
  · cases h

/-- A method changes an instance in marks alone. -/
theorem same_callMethod {reply : Reply} (h : ((o.callMethod name).runIn world).1 = .ok (o', reply)) :
    SameButMarks o o' := by
  have hsame : SameButMarks o o := fun _ => .inl rfl
  rw [callMethod] at h
  split at h
  · cases h
  · obtain ⟨v,_,h⟩ := Action.bind_ok h
    cases h
    exact hsame
  · obtain ⟨o'',ho,h⟩ := Action.bind_ok h
    cases h
    exact same_countCall ho
  · split at h
    · obtain ⟨o'',ho,h⟩ := Action.bind_ok h
      cases h
      cases ho
      exact same_set (.inl ⟨_,rfl⟩)
    · obtain ⟨o'',ho,h⟩ := Action.bind_ok h
      cases h
      exact same_record ho
    · obtain ⟨o'',ho,h⟩ := Action.bind_ok h
      cases h
      exact same_record ho
    · obtain ⟨⟨o'',events⟩,ho,h⟩ := Action.bind_ok h
      cases h
      rw [pullEvents] at ho
      split at ho <;> cases ho
      exact hsame
    · cases h
      exact hsame
    · cases h
    · cases h
    · cases h

end Object

namespace Descriptor

variable {entity : Value} {ps : List Property} {record : Record} {world : World}

/-- A record has the value of each property, in their order. -/
theorem recordFor_ok (h : ((recordFor entity ps).runIn world).1 = .ok record) :
    List.Forall₂ (fun p entry => entry.1 = p.key ∧ ∃ world v,
      ((p.valueOf entity).runIn world).1 = .ok v ∧ p.stored v = .ok entry.2) ps record := by
  induction ps generalizing record world with
  | nil =>
    cases h
    exact .nil
  | cons p rest ih =>
    obtain ⟨v,hv,h⟩ := Action.bind_ok h
    obtain ⟨w,hw,h⟩ := Action.bind_ok h
    obtain ⟨others,hothers,h⟩ := Action.bind_ok h
    cases h
    exact .cons ⟨rfl,world,v,hv,hw⟩ (ih hothers)

theorem recordFor_keys (h : ((recordFor entity ps).runIn world).1 = .ok record) :
    record.map (·.1) = ps.map (·.key) :=
  (map_eq_of_forall₂ (recordFor_ok h) fun _ _ hp => hp.1.symm).symm

/-- What a record has for a property that is there in the instance. -/
theorem recordFor_stored {p : Property} (h : ((recordFor entity ps).runIn world).1 = .ok record)
    (hkeys : (ps.map (·.key)).Nodup) (hp : p ∈ ps) (hthere : entity.attributeOrNull p.key ≠ .null) :
    p.stored (entity.attributeOrNull p.key) = .ok (record.field p.key) := by
  obtain ⟨entry,hentry,hkey,world,v,hv,hstored⟩ := exists_right_of_forall₂ (recordFor_ok h) hp
  have hlookup := lookup_of_nodup (by rwa [recordFor_keys h]) hentry
  have hgiven : v = entity.attributeOrNull p.key := by
    rw [Property.valueOf] at hv
    split at hv
    · rename_i hnull _
      exact absurd hnull hthere
    · cases hv
      rfl
  rw [← hkey,Record.field,hlookup,Option.getD_some,hkey,← hgiven]
  exact hstored

theorem recordFor_field {p : Property} (h : ((recordFor entity ps).runIn world).1 = .ok record)
    (hkeys : (ps.map (·.key)).Nodup) (hp : p ∈ ps) (hscalar : p.isRelationship = false)
    (hthere : entity.attributeOrNull p.key ≠ .null) :
    (entity.attributeOrNull p.key).serialize = .ok (record.field p.key) := by
  have hstored := recordFor_stored h hkeys hp hthere
  rwa [Property.stored,hscalar,if_neg Bool.false_ne_true] at hstored

end Descriptor

namespace Write

variable {σ : Type} {w w' : Writing σ}

/-- A method leaves an instance with what it has, but for marks. -/
theorem callIfAny_attribute {name : String} {reply : Option Reply} (h : runOn (callIfAny name) w = (.ok reply, w'))
    (key : String) : w'.entity.attributeOrNull key = w.entity.attributeOrNull key ∨
      (w'.entity.attributeOrNull key).IsMark := by
  rw [runOn_callIfAny] at h
  split at h
  · rw [runOn_call] at h
    split at h
    · rename_i o ho
      rcases hcall : (o.callMethod name).runIn w.world with ⟨e | ⟨o',reply'⟩,world⟩ <;> rw [hcall] at h
      · cases h
      · cases h
        have hsame := Object.same_callMethod (by rw [hcall]) key
        rw [ho]
        change (o'.value? key).getD .null = (o.value? key).getD .null ∨ ((o'.value? key).getD .null).IsMark
        rcases hsame with hsame | ⟨v,hv,hmark⟩
        · exact .inl (by rw [hsame])
        · exact .inr (by rw [hv]; exact hmark)
    · cases h
  · cases h
    exact .inl rfl

theorem runOn_bind_ok {α β : Type} {m : Write σ α} {f : α → Write σ β} {b : β}
    (h : (runOn (m >>= f) w).1 = .ok b) : ∃ a w', runOn m w = (.ok a, w') ∧ (runOn (f a) w').1 = .ok b := by
  rw [runOn_bind] at h
  rcases hrun : runOn m w with ⟨e | a,w'⟩ <;> rw [hrun] at h
  · cases h
  · exact ⟨a,w',rfl,h⟩

theorem callIfAny_withRepository (name : String) (w : Writing σ) (repository : Repository) :
    runOn (callIfAny name) { w with repository } =
      ((runOn (callIfAny name) w).1, { (runOn (callIfAny name) w).2 with repository }) := by
  rcases w with ⟨world,_,entity,store⟩
  simp only [runOn_callIfAny,runOn_call]
  split
  · cases entity with
    | object o =>
      dsimp only
      rcases (o.callMethod name).runIn world with ⟨_ | ⟨o',reply⟩,world'⟩ <;> rfl
    | _ => rfl
  · rfl

end Write

namespace Adapter

open Write

variable {σ : Type} {op : Operation} {w : Writing σ} {id : String} {record : Record}

/-- What is prepared does not depend on what was published. -/
theorem prepare_published (op : Operation) (w : Writing σ) (published : List (List (Event Value))) :
    (runOn (prepare op) { w with repository := { w.repository with published } }).1 =
      (runOn (prepare op) w).1 := by
  have hid : { w.repository with published }.entityId w.entity = w.repository.entityId w.entity := rfl
  cases op with
  | insert =>
    simp only [prepare,runOn_bind,runOn_entityId,runOn_record,runOn_pure,hid]
    rcases w.repository.entityId w.entity with e | id
    · rfl
    · dsimp only
      rcases ((w.repository.descriptor.record w.entity).runIn w.world).1 with e | record <;> rfl
  | delete =>
    simp only [prepare,runOn_bind,runOn_entityId,runOn_pure,hid]
    rcases w.repository.entityId w.entity with e | id <;> rfl
  | update =>
    have htouch := callIfAny_withRepository Hook.touch.name w { w.repository with published }
    have hrepository := callIfAny_repository Hook.touch.name w
    simp only [prepare,runOn_bind,runOn_entityId,runOn_record,runOn_pure,hid]
    rcases w.repository.entityId w.entity with e | id
    · rfl
    · dsimp only at htouch ⊢
      rw [htouch]
      rcases hrun : runOn (callIfAny Hook.touch.name) w with ⟨e | reply,w'⟩
      · rfl
      · rw [hrun] at hrepository
        dsimp only at hrepository ⊢
        rw [← hrepository]
        rcases ((w'.repository.descriptor.record w'.entity).runIn w'.world).1 with e | record <;> rfl

theorem prepare_id (h : (runOn (prepare op) w).1 = .ok (id, record)) : w.repository.entityId w.entity = .ok id := by
  cases op with
  | insert =>
    obtain ⟨id₁,w₁,hid,h⟩ := runOn_bind_ok h
    obtain ⟨record₁,w₂,_,h⟩ := runOn_bind_ok h
    cases h
    exact congrArg Prod.fst hid
  | update =>
    obtain ⟨id₁,w₁,hid,h⟩ := runOn_bind_ok h
    obtain ⟨reply,w₂,_,h⟩ := runOn_bind_ok h
    obtain ⟨record₁,w₃,_,h⟩ := runOn_bind_ok h
    cases h
    exact congrArg Prod.fst hid
  | delete =>
    obtain ⟨id₁,w₁,hid,h⟩ := runOn_bind_ok h
    cases h
    exact congrArg Prod.fst hid

theorem binds_prepare (op : Operation) : Binds (prepare op : Write σ (String × Record)) := by
  have hany (name : String) : Binds (callIfAny name : Write σ (Option Reply)) :=
    fun w => ⟨w.repository.published,callIfAny_repository name w⟩
  have hentityId : Binds (entityId : Write σ String) := fun w => ⟨w.repository.published,rfl⟩
  have hrecord : Binds (Write.record : Write σ Record) := fun w => ⟨w.repository.published,rfl⟩
  have hpure (prepared : String × Record) : Binds (pure prepared : Write σ (String × Record)) :=
    fun w => ⟨w.repository.published,rfl⟩
  cases op with
  | insert => exact binds_bind hentityId fun _ => binds_bind hrecord fun _ => hpure _
  | update => exact binds_bind hentityId fun _ => binds_bind (hany _) fun _ => binds_bind hrecord fun _ => hpure _
  | delete => exact binds_bind hentityId fun _ => hpure _

/-- The identifier in a record is the text that the instance is stored under, unless a method marked it. -/
theorem record_identifier {r : Repository} {before after : Value} {world : World} {s : String}
    (hid : r.entityId before = .ok id) (hrecord : ((r.descriptor.record after).runIn world).1 = .ok record)
    (hsame : after.attributeOrNull r.identifier.key = before.attributeOrNull r.identifier.key ∨
      (after.attributeOrNull r.identifier.key).IsMark)
    (hkeys : r.descriptor.keys.Nodup) (hmem : r.identifier ∈ r.descriptor.properties)
    (hscalar : r.identifier.isRelationship = false) (htext : record.field r.identifier.key = .str s) : s = id := by
  have hthere : after.attributeOrNull r.identifier.key ≠ .null := by
    rcases hsame with hsame | ⟨_,hmark⟩ | ⟨_,hmark⟩ | ⟨_,hmark⟩
    · intro hnull
      rw [hsame] at hnull
      rw [Repository.entityId,hnull] at hid
      cases hid
    all_goals
      rw [hmark]
      exact Value.noConfusion
  have hfield := Descriptor.recordFor_field hrecord hkeys hmem hscalar hthere
  rw [htext] at hfield
  rcases hsame with hsame | ⟨_,hmark⟩ | ⟨_,hmark⟩ | ⟨_,hmark⟩
  · rw [hsame] at hfield
    rw [Repository.entityId] at hid
    split at hid
    · cases hid
    · rw [hfield] at hid
      exact Except.ok.inj hid
  all_goals
    rw [hmark] at hfield
    cases hfield

/-- An instance is inserted under the text of the identifier in its record. -/
theorem prepare_display (h : (runOn (prepare .insert) w).1 = .ok (id, record))
    (hkeys : w.repository.descriptor.keys.Nodup)
    (hmem : w.repository.identifier ∈ w.repository.descriptor.properties)
    (hscalar : w.repository.identifier.isRelationship = false) :
    (record.field w.repository.identifier.key).display = id := by
  obtain ⟨id₁,w₁,hid,h⟩ := runOn_bind_ok h
  obtain ⟨record₁,w₂,hrecord,h⟩ := runOn_bind_ok h
  cases h
  rw [runOn_entityId,Prod.mk.injEq] at hid
  obtain ⟨hid,rfl⟩ := hid
  rw [Repository.entityId] at hid
  split at hid
  · cases hid
  · rename_i hthere
    obtain ⟨v,hv,rfl⟩ := map_eq_ok.mp hid
    have hfield := Descriptor.recordFor_field (congrArg Prod.fst hrecord) hkeys hmem hscalar
      fun hnull => hthere (by rw [hnull]; rfl)
    cases hv.symm.trans hfield
    rfl

/-- The record that is prepared is that of the class, under the identifier in it. -/
theorem prepare_record (h : (runOn (prepare op) w).1 = .ok (id, record)) (hop : op ≠ .delete)
    (hkeys : w.repository.descriptor.keys.Nodup)
    (hmem : w.repository.identifier ∈ w.repository.descriptor.properties)
    (hscalar : w.repository.identifier.isRelationship = false) {s : String}
    (htext : record.field w.repository.identifier.key = .str s) :
    record.map (·.1) = w.repository.descriptor.keys ∧ s = id := by
  cases op with
  | delete => exact absurd rfl hop
  | insert =>
    obtain ⟨id₁,w₁,hid,h⟩ := runOn_bind_ok h
    obtain ⟨record₁,w₂,hrecord,h⟩ := runOn_bind_ok h
    cases h
    rw [runOn_entityId,Prod.mk.injEq] at hid
    obtain ⟨hid,rfl⟩ := hid
    have hrecord := congrArg Prod.fst hrecord
    exact ⟨Descriptor.recordFor_keys hrecord,record_identifier hid hrecord (.inl rfl) hkeys hmem hscalar htext⟩
  | update =>
    obtain ⟨id₁,w₁,hid,h⟩ := runOn_bind_ok h
    obtain ⟨reply,w₂,htouch,h⟩ := runOn_bind_ok h
    obtain ⟨record₁,w₃,hrecord,h⟩ := runOn_bind_ok h
    cases h
    rw [runOn_entityId,Prod.mk.injEq] at hid
    obtain ⟨hid,rfl⟩ := hid
    have hrepository := callIfAny_repository Hook.touch.name w
    have hsame := callIfAny_attribute htouch w.repository.identifier.key
    rw [htouch] at hrepository
    have hrecord := congrArg Prod.fst hrecord
    rw [runOn_record,hrepository] at hrecord
    exact ⟨Descriptor.recordFor_keys hrecord,record_identifier hid hrecord hsame hkeys hmem hscalar htext⟩

end Adapter

end Trischema
