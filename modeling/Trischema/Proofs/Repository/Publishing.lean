import Mathlib.Logic.Function.Basic
import Trischema.Proofs.Repository.Recording

/-!
What repositories publish. An entity records events, and repositories over both kinds of store publish them with the
writes that succeed: every event once, in the order in which they were recorded, and none with a write that fails.
-/

namespace Trischema

/-- What a write of an entity records when it succeeds. -/
def Operation.events (o : Object Value) (now : Moment) : Operation → List (Event Value)
  | .insert => [o.event (.str "created") [] now]
  | .update => []
  | .delete => [o.event (.str "deleted") [] now]

namespace Write

variable {σ : Type} {w : Writing σ} {o : Object Value}

/-- Events as they are published: together, unless there are none. -/
def batches (events : List (Event Value)) : List (List (Event Value)) := if events.isEmpty then [] else [events]

theorem flatten_batches (events : List (Event Value)) : (batches events).flatten = events := by
  cases events <;> simp [batches]

/-- A method of an entity that is called does what the method does. -/
theorem runOn_callIfAny_hook {name : String} {o' : Object Value} {reply : Reply} {hook : Hook}
    (ho : w.entity = .object o) (hhook : o.attribute? name = some (.hook hook))
    (hcall : (o.callMethod name).runIn w.world = (.ok (o', reply), w.world)) :
    runOn (callIfAny name) w = (.ok (some reply), { w with entity := .object o' }) := by
  have hcan : canCall w.entity name = true := by
    rw [ho]
    change (o.value? name).any Value.isCallable = true
    rw [Object.value?,hhook]
    rfl
  rw [runOn_callIfAny,hcan,if_pos rfl,runOn_call,ho]
  dsimp only
  rw [hcall]
  rfl

/-- The pending events are taken and published. -/
theorem runOn_finish_none (ho : w.entity = .object o) (h : o.Announces)
    (haccept : w.repository.publisher = some .accepting) :
    runOn (finish none) w = (.ok ⟨⟩, { w with
      entity := .object { o with pending := [] }
      repository := { w.repository with published := w.repository.published ++ batches o.pending } }) := by
  have hhook := h.hooks .pullEvents (by decide)
  have hpull : (o.callMethod Hook.pullEvents.name).runIn w.world =
      (.ok ({ o with pending := [] }, .events o.pending), w.world) := by
    rw [Object.callMethod,hhook]
    simp only [Object.pullEvents,h.records]
    rfl
  have hrun := runOn_callIfAny_hook ho hhook hpull
  change runOn (callIfAny Hook.pullEvents.name >>= _) w = _
  rw [runOn_bind,hrun]
  dsimp only
  cases hpending : o.pending with
  | nil => simp [batches,runOn_pure]
  | cons event rest =>
    simp only [publish,runOn_bind,runOn_get,haccept]
    rfl

/-- The hook records its event, and then all that is pending is published. -/
theorem runOn_finish (op : Operation) (ho : w.entity = .object o) (h : o.Announces)
    (haccept : w.repository.publisher = some .accepting) :
    runOn (finish (Adapter.hookOf op)) w = (.ok ⟨⟩, { w with
      entity := .object { o with pending := [] }
      repository := { w.repository with
        published := w.repository.published ++ batches (o.pending ++ op.events o w.world.clock) } }) := by
  have hhooked (hook : Hook) (name : String) (hhook : o.attribute? hook.name = some (.hook hook))
      (hcall : (o.callMethod hook.name).runIn w.world = (.ok ({ o with
        pending := o.pending ++ [o.event (.str name) [] w.world.clock] }, .value .null), w.world)) :
      runOn (finish (some hook)) w = (.ok ⟨⟩, { w with
        entity := .object { o with pending := [] }
        repository := { w.repository with
          published := w.repository.published ++ batches (o.pending ++ [o.event (.str name) [] w.world.clock]) } }) := by
    have hrun := runOn_callIfAny_hook ho hhook hcall
    change runOn (callIfAny hook.name >>= fun _ => finish none) w = _
    rw [runOn_bind,hrun]
    exact runOn_finish_none rfl (h.withPending _) haccept
  cases op with
  | insert =>
    have hhook := h.hooks .create (by decide)
    refine hhooked .create "created" hhook ?_
    rw [Object.callMethod,hhook]
    change Action.runIn w.world (o.record "created" >>= _) = _
    rw [Action.runIn_bind,Object.runIn_record h]
    rfl
  | update =>
    rw [Operation.events,List.append_nil]
    exact runOn_finish_none ho h haccept
  | delete =>
    have hhook := h.hooks .delete (by decide)
    refine hhooked .delete "deleted" hhook ?_
    rw [Object.callMethod,hhook]
    change Action.runIn w.world (o.record "deleted" >>= _) = _
    rw [Action.runIn_bind,Object.runIn_record h]
    rfl

end Write

/-- How a write of an entity ends: it fails and publishes nothing, or publishes all that is pending by then. -/
inductive Announced (o : Object Value) (op : Operation) (now : Moment) (r : Repository) :
    Except Error Unit → Value → Repository → Prop
  | failed {o' : Object Value} {e : Error} (hsame : o.SameButDate o') : Announced o op now r (.error e) (.object o') r
  | published {o' : Object Value} (hsame : o.SameButDate o') : Announced o op now r (.ok ⟨⟩)
      (.object { o' with pending := [] })
      { r with published := r.published ++ Write.batches (o.pending ++ op.events o now) }

namespace Write

variable {σ : Type} {w : Writing σ} {o : Object Value}

/-- A write that is silent until it finishes announces what it records. -/
theorem announced_finish {m : Write σ Unit} (hm : Silent m) (op : Operation) (ho : w.entity = .object o)
    (h : o.Announces) (haccept : w.repository.publisher = some .accepting) :
    Announced o op w.world.clock w.repository (runOn (m >>= fun _ => finish (Adapter.hookOf op)) w).1
      (runOn (m >>= fun _ => finish (Adapter.hookOf op)) w).2.entity
      (runOn (m >>= fun _ => finish (Adapter.hookOf op)) w).2.repository := by
  obtain ⟨hrepository,hclock,hentity⟩ := hm w ⟨o,ho,h.hooks .touch (by decide)⟩
  obtain ⟨o',ho',hsame⟩ := hentity o ho
  rw [runOn_bind]
  rcases hrun : runOn m w with ⟨e | _,w'⟩ <;> rw [hrun] at hrepository hclock ho' <;> dsimp only at hrepository hclock ho' ⊢
  · rw [hrepository,ho']
    exact .failed hsame
  · have hevents : op.events o' w'.world.clock = op.events o w.world.clock := by
      cases op <;> simp only [Operation.events,hclock,Object.event_same hsame]
    have hfinish := runOn_finish op ho' (h.same hsame) (by rw [hrepository]; exact haccept)
    rw [hevents,hsame.pending,hrepository] at hfinish
    rw [hfinish]
    exact .published hsame

end Write

/-- A repository that is written to: over records in memory, or over a table through a connection. -/
inductive Outlet
  | memory (repository : Repository) (records : Records)
  | table (binding : TableBinding) (repository : Repository) (connection : Connection)

namespace Outlet

def repository : Outlet → Repository
  | memory r _ | table _ r _ => r

/-- The answer of a write of an entity, and what it leaves of the entity and of the repository. -/
def write (op : Operation) (entity : Value) (world : World) : Outlet → Except Error Unit × Value × Outlet
  | memory r records =>
    let (answer, w) := Write.runOn op.onRecords ⟨world, r, entity, records⟩
    (answer, w.entity, memory w.repository w.store)
  | table b r c =>
    let (answer, w) := Write.runOn (op.onConnection b) ⟨world, r, entity, c⟩
    (answer, w.entity, table b w.repository w.store)

/-- Repositories of both kinds announce alike. -/
theorem announced_write {o : Object Value} {outlet : Outlet} (op : Operation) (h : o.Announces)
    (haccept : outlet.repository.publisher = some .accepting) (world : World) :
    Announced o op world.clock outlet.repository (outlet.write op (.object o) world).1
      (outlet.write op (.object o) world).2.1 (outlet.write op (.object o) world).2.2.repository := by
  cases outlet with
  | memory r records =>
    rw [write,Operation.onRecords_eq_storing]
    exact Write.announced_finish (w := ⟨world, r, .object o, records⟩) (Write.silent_storing _ op) op rfl h haccept
  | table b r c =>
    rw [write,Operation.onConnection_eq_storing]
    exact Write.announced_finish (w := ⟨world, r, .object o, c⟩) (Write.silent_storingThrough b op) op rfl h haccept

end Outlet

/-- An entity with the repositories that it is written to, and what these published since, in the order of time. -/
structure Scene (ι : Type) where
  entity : Value
  outlets : ι → Outlet
  published : List (Event Value) := []

/-- What is done with an entity. -/
inductive Deed (ι : Type)
  /-- an attribute is set -/
  | assign (name : String) (v : Value)
  /-- an event is recorded -/
  | announce (name : Value) (payload : List (String × Value)) (world : World)
  /-- it is written to one of the repositories -/
  | write (place : ι) (op : Operation) (world : World)

/-- Whether a deed leaves the methods of an entity, and the kind of its identifier. -/
def Deed.Lawful {ι : Type} : Deed ι → Prop
  | .assign name v => (∀ h ∈ Builtin.entity.hooks, h.name ≠ name) ∧ (name = "id" → ∃ s, v = .identifier s)
  | .announce .. | .write .. => True

namespace Scene

variable {ι : Type} [DecidableEq ι]

/-- What a repository has published since an earlier time. -/
def since (before after : Repository) : List (Event Value) := (after.published.drop before.published.length).flatten

/-- What a deed leaves. -/
def step (s : Scene ι) (deed : Deed ι) : Scene ι :=
  match deed, s.entity with
  | .assign name v, .object o => { s with entity := .object (o.set name v) }
  | .announce name payload world, .object o =>
    match ((o.addEvent name payload).runIn world).1 with
    | .ok o => { s with entity := .object o }
    | .error _ => s
  | .write place op world, entity =>
    let (_, entity, outlet) := (s.outlets place).write op entity world
    { entity
      outlets := Function.update s.outlets place outlet
      published := s.published ++ since (s.outlets place).repository outlet.repository }
  | _, _ => s

/-- What a series of deeds leaves. -/
def run (s : Scene ι) (deeds : List (Deed ι)) : Scene ι := deeds.foldl step s

/-- The events that a deed records: the given one, or that of a write which succeeds. -/
def recorded (s : Scene ι) (deed : Deed ι) : List (Event Value) :=
  match deed, s.entity with
  | .announce name payload world, .object o => [o.event name payload world.clock]
  | .write place op world, .object o =>
    match ((s.outlets place).write op s.entity world).1 with
    | .ok _ => op.events o world.clock
    | .error _ => []
  | _, _ => []

/-- The events that a series of deeds records, from the first to the last. -/
def history (s : Scene ι) : List (Deed ι) → List (Event Value)
  | [] => []
  | deed :: rest => s.recorded deed ++ (s.step deed).history rest

/-- Whether an entity is there whose events can be published, with these pending. -/
def Holds (s : Scene ι) (pending : List (Event Value)) : Prop :=
  (∃ o, s.entity = .object o ∧ o.Announces ∧ o.pending = pending) ∧
    ∀ place, (s.outlets place).repository.publisher = some .accepting

variable {s : Scene ι} {pending : List (Event Value)}

/-- A write that fails publishes nothing and leaves what is pending; one that succeeds publishes all of it, and the
event that it records, and leaves nothing. -/
theorem write_publishes (h : s.Holds pending) (place : ι) (op : Operation) (world : World) :
    match ((s.outlets place).write op s.entity world).1 with
    | .error _ => (s.step (.write place op world)).Holds pending ∧
        (s.step (.write place op world)).published = s.published ∧
        ∀ other, ((s.step (.write place op world)).outlets other).repository = (s.outlets other).repository
    | .ok _ => (s.step (.write place op world)).Holds [] ∧
        (s.step (.write place op world)).published =
          s.published ++ pending ++ s.recorded (.write place op world) ∧
        ∀ other, ((s.step (.write place op world)).outlets other).repository =
          if other = place then
            { (s.outlets place).repository with
              published := (s.outlets place).repository.published ++
                Write.batches (pending ++ s.recorded (.write place op world)) }
          else (s.outlets other).repository := by
  obtain ⟨⟨o,ho,hannounces,rfl⟩,haccept⟩ := h
  have hwrite := Outlet.announced_write op hannounces (haccept place) world
  rw [← ho] at hwrite
  simp only [step,recorded,ho]
  rw [← ho]
  rcases hrun : (s.outlets place).write op s.entity world with ⟨answer,entity,outlet⟩
  rw [hrun] at hwrite
  dsimp only at hwrite ⊢
  generalize hrepository : outlet.repository = r at hwrite
  have hothers (other : ι) : (Function.update s.outlets place outlet other).repository =
      if other = place then r else (s.outlets other).repository := by
    rw [Function.update_apply]
    split
    · exact hrepository
    · rfl
  cases hwrite with
  | @failed o' e hsame =>
    have hsilent (other : ι) : (Function.update s.outlets place outlet other).repository = (s.outlets other).repository := by
      rw [hothers]
      split
      · rename_i hother
        rw [hother]
      · rfl
    refine ⟨⟨⟨o',rfl,hannounces.same hsame,hsame.pending⟩,fun other => ?_⟩,?_,hsilent⟩
    · rw [hsilent]
      exact haccept other
    · simp [since]
  | @published o' hsame =>
    refine ⟨⟨⟨_,rfl,(hannounces.same hsame).withPending [],rfl⟩,fun other => ?_⟩,?_,hothers⟩
    · rw [hothers]
      split
      · exact haccept place
      · exact haccept other
    · simp only [since,List.drop_left,Write.flatten_batches,List.append_assoc]

/-- What was published and what is pending grows by what a deed records. -/
theorem step_publishes {deed : Deed ι} (h : s.Holds pending) (hlawful : deed.Lawful) :
    ∃ left, (s.step deed).Holds left ∧
      (s.step deed).published ++ left = s.published ++ pending ++ s.recorded deed := by
  cases deed with
  | assign name v =>
    obtain ⟨⟨o,ho,hannounces,rfl⟩,haccept⟩ := h
    obtain ⟨hhooks,hid⟩ := hlawful
    have hset : (o.set name v).Announces := by
      refine ⟨hannounces.records,fun hook hhook => ?_,?_⟩
      · rw [Object.attribute?_set o v (hhooks hook hhook)]
        exact hannounces.hooks hook hhook
      · by_cases hname : "id" = name
        · obtain ⟨s,rfl⟩ := hid hname.symm
          refine ⟨s,?_⟩
          rw [Object.attribute?,Object.set,Object.lookup_setNamed,if_pos hname]
        · rw [Object.attribute?_set o v hname]
          exact hannounces.identified
    simp only [step,recorded,ho]
    exact ⟨o.pending,⟨⟨_,rfl,hset,rfl⟩,haccept⟩,(List.append_nil _).symm⟩
  | announce name payload world =>
    obtain ⟨⟨o,ho,hannounces,rfl⟩,haccept⟩ := h
    simp only [step,recorded,ho,Object.runIn_addEvent hannounces]
    exact ⟨_,⟨⟨_,rfl,hannounces.withPending _,rfl⟩,haccept⟩,(List.append_assoc ..).symm⟩
  | write place op world =>
    have hwrite := write_publishes h place op world
    cases hrun : ((s.outlets place).write op s.entity world).1 with
    | error e =>
      rw [hrun] at hwrite
      obtain ⟨hholds,hpublished,_⟩ := hwrite
      have hnone : s.recorded (.write place op world) = [] := by
        obtain ⟨⟨o,ho,_⟩,_⟩ := h
        rw [ho] at hrun
        simp only [recorded,ho,hrun]
      exact ⟨pending,hholds,by rw [hpublished,hnone,List.append_nil]⟩
    | ok _ =>
      rw [hrun] at hwrite
      obtain ⟨hholds,hpublished,_⟩ := hwrite
      exact ⟨[],hholds,by rw [List.append_nil,hpublished]⟩

theorem run_publishes {deeds : List (Deed ι)} (h : s.Holds pending) (hlawful : ∀ deed ∈ deeds, deed.Lawful) :
    ∃ left, (s.run deeds).Holds left ∧
      (s.run deeds).published ++ left = s.published ++ pending ++ s.history deeds := by
  induction deeds generalizing s pending with
  | nil => exact ⟨pending,h,(List.append_nil _).symm⟩
  | cons deed rest ih =>
    obtain ⟨next,hnext,hstep⟩ := step_publishes h (hlawful deed (List.mem_cons_self ..))
    obtain ⟨left,hleft,hrun⟩ := ih hnext fun deed hdeed => hlawful deed (List.mem_cons_of_mem _ hdeed)
    refine ⟨left,hleft,?_⟩
    change ((s.step deed).run rest).published ++ left = s.published ++ pending ++ (s.recorded deed ++ _)
    rw [hrun,hstep,List.append_assoc]

/-- The events of an entity are published once and in order. Whatever is recorded on it and wherever it is written,
the events published so far, followed by those that are pending, are all that were recorded since, in that order. A
write that fails publishes nothing and keeps what is pending; the next that succeeds publishes it, with the event
that it records itself. -/
theorem published_in_order {o : Object Value} {outlets : ι → Outlet} {deeds : List (Deed ι)} {left : Scene ι}
    (hannounces : o.Announces) (haccept : ∀ place, (outlets place).repository.publisher = some .accepting)
    (hlawful : ∀ deed ∈ deeds, deed.Lawful) (hleft : left = run { entity := .object o, outlets } deeds) :
    ∃ o', left.entity = .object o' ∧
      left.published ++ o'.pending = o.pending ++ history { entity := .object o, outlets } deeds ∧
      ∀ place op world, ∃ o'', (left.step (.write place op world)).entity = .object o'' ∧
        match ((left.outlets place).write op left.entity world).1 with
        | .error _ => (left.step (.write place op world)).published = left.published ∧ o''.pending = o'.pending ∧
            ∀ other, ((left.step (.write place op world)).outlets other).repository = (left.outlets other).repository
        | .ok _ => (left.step (.write place op world)).published =
              left.published ++ (o'.pending ++ op.events o' world.clock) ∧ o''.pending = [] ∧
            ∀ other, ((left.step (.write place op world)).outlets other).repository =
              if other = place then
                { (left.outlets place).repository with
                  published := (left.outlets place).repository.published ++
                    Write.batches (o'.pending ++ op.events o' world.clock) }
              else (left.outlets other).repository := by
  have hstart : Holds { entity := .object o, outlets : Scene ι } o.pending :=
    ⟨⟨o,rfl,hannounces,rfl⟩,haccept⟩
  obtain ⟨pending,hholds,hrun⟩ := run_publishes hstart hlawful
  rw [← hleft] at hholds hrun
  obtain ⟨o',ho',_,rfl⟩ := hholds.1
  refine ⟨o',ho',hrun,fun place op world => ?_⟩
  have hwrite := write_publishes hholds place op world
  have hrecorded (u : Unit) (h : ((left.outlets place).write op left.entity world).1 = .ok u) :
      left.recorded (.write place op world) = op.events o' world.clock := by
    rw [ho'] at h
    simp only [recorded,ho',h]
  cases hanswer : ((left.outlets place).write op left.entity world).1 with
  | error e =>
    rw [hanswer] at hwrite
    obtain ⟨⟨⟨o'',ho'',_,hpending⟩,_⟩,hpublished,hothers⟩ := hwrite
    exact ⟨o'',ho'',hpublished,hpending,hothers⟩
  | ok u =>
    rw [hanswer,hrecorded u hanswer,List.append_assoc] at hwrite
    obtain ⟨⟨⟨o'',ho'',_,hpending⟩,_⟩,hpublished,hothers⟩ := hwrite
    exact ⟨o'',ho'',hpublished,hpending,hothers⟩

/-- Drafts in memory and in a table, of a publisher that accepts what it is given. -/
def drafting (o : Object Value) (r : Repository) (b : TableBinding) (db : Database) : Scene Bool where
  entity := .object o
  outlets
    | false => .memory { r with publisher := some .accepting } []
    | true => .table b { r with publisher := some .accepting } (.opened db)

/-- A draft is edited, its update fails because it was never stored, and then it is stored twice. -/
def edits : List (Deed Bool) :=
  [.announce (.str "edited") [] default, .write true .update default, .write false .insert default,
    .write true .insert default]

theorem drafts_announce {o : Object Value} {r : Repository} {b : TableBinding} {db : Database}
    (h : Call.drafts = .ok (o, r, b, db)) : o.Announces := by
  have ho := Call.construct_of_drafts h
  exact (Object.announces_construct (by decide) (by simp [Builtin.hooks,Hook.name,List.lookup_cons]) ho).1

/-- What is pending is published with the first write that succeeds, after an update that failed. -/
theorem published_in_order_edits : ∃ o r b db o', Call.drafts = .ok (o, r, b, db) ∧
    ((drafting o r b db).run edits).entity = .object o' ∧
    ((drafting o r b db).run edits).published ++ o'.pending = o.pending ++ (drafting o r b db).history edits ∧
    ((drafting o r b db).run edits).published.map (·.name.display) = ["edited", "created", "created"] := by
  have hok : (Call.drafts.toOption.any fun made =>
      ((drafting made.1 made.2.1 made.2.2.1 made.2.2.2).run edits).published.map (·.name.display) ==
        ["edited", "created", "created"]) = true := by
    decide +kernel
  obtain ⟨⟨o,r,b,db⟩,hdrafts,hnames⟩ := exists_ok_of_any hok
  have haccept : ∀ place, ((drafting o r b db).outlets place).repository.publisher = some .accepting := by
    intro place
    cases place <;> rfl
  have hlawful : ∀ deed ∈ edits, deed.Lawful := by
    simp [edits,Deed.Lawful]
  obtain ⟨o',ho',hrun,_⟩ := published_in_order (drafts_announce hdrafts) haccept hlawful rfl
  exact ⟨o,r,b,db,o',hdrafts,ho',hrun,eq_of_beq hnames⟩

end Scene

end Trischema
