import Trischema.Proofs.Registry.Identifiers
import Trischema.Proofs.Registry.Tables

/-!
Registrations of different classes commute. What stands under the name of a class, and how each registration of that
class is answered, depends on the registrations of that class and their order alone; and where the names of all classes
differ, nothing that is read of a registry depends on the order in which its classes were registered.
-/

namespace Trischema

/-- Lists are the same up to order when, for each value of a key, their elements of that key are. -/
theorem perm_of_filter {α κ : Type} [DecidableEq κ] (key : α → κ) {xs ys : List α}
    (h : ∀ k, (xs.filter (key · = k)).Perm (ys.filter (key · = k))) : xs.Perm ys := by
  classical
  rw [List.perm_iff_count]
  intro a
  have hcount (l : List α) : List.count a (l.filter (key · = key a)) = List.count a l :=
    List.count_filter (by simp)
  rw [← hcount xs,← hcount ys]
  exact (h (key a)).count_eq a

namespace Registry

variable {r r' : Registry}

theorem filedAs_of_under (h : ∀ name, r.under name = r'.under name) : r.FiledAs r' := by
  constructor
  · intro name
    rw [filed?_eq,filed?_eq]
    exact congrArg (fun holding => holding.marked.map (·.2)) (h name)
  · intro name
    rw [filed?_eq,filed?_eq]
    exact congrArg (fun holding => holding.declared.map (·.2)) (h name)

theorem classes_perm (htidy : r.Tidy) (htidy' : r'.Tidy) (h : ∀ name, r.under name = r'.under name) :
    r.classes.Perm r'.classes := by
  have hmarked : r.entities.Perm r'.entities :=
    perm_of_filing? htidy.marked htidy'.marked fun name => congrArg Holding.marked (h name)
  have hdeclared : r.declarations.Perm r'.declarations :=
    perm_of_filing? htidy.declared htidy'.declared fun name => congrArg Holding.declared (h name)
  have hnames (name : ClassName) : ((r.entities.map (·.1)).map (·.name)).contains name =
      ((r'.entities.map (·.1)).map (·.name)).contains name := by
    rw [Bool.eq_iff_iff,List.contains_iff_mem,List.contains_iff_mem]
    exact ((hmarked.map _).map _).mem_iff
  rw [classes,classes]
  simp only [hnames]
  exact (hmarked.map _).append ((hdeclared.map _).filter _)

theorem sortedClasses_pairwise (r : Registry) : r.sortedClasses.Pairwise fun a b => r.nameOf a ≤ r.nameOf b := by
  have hsorted : r.sortedClasses.Pairwise fun a b => decide (r.nameOf a ≤ r.nameOf b) = true := by
    refine List.pairwise_mergeSort ?_ ?_ r.classes
    · intro a b c hab hbc
      exact decide_eq_true (String.le_trans (of_decide_eq_true hab) (of_decide_eq_true hbc))
    · intro a b
      simpa using String.le_total (r.nameOf a) (r.nameOf b)
  exact hsorted.imp of_decide_eq_true

/-- Where the names of all classes differ, a registry is read alike in whatever order its tables stand. -/
theorem readsAs_of_under (htidy : r.Tidy) (htidy' : r'.Tidy) (h : ∀ name, r.under name = r'.under name)
    (hnames : (r.classes.map r.nameOf).Nodup) : r.ReadsAs r' := by
  have hfiled := filedAs_of_under h
  have hperm : r.sortedClasses.Perm r'.sortedClasses :=
    (List.mergeSort_perm _ _).trans ((classes_perm htidy htidy' h).trans (List.mergeSort_perm _ _).symm)
  -- a sorted list has one order only where no two of its names are the same
  have hsorted : r.sortedClasses = r'.sortedClasses := by
    refine hperm.eq_of_pairwise ?_ r.sortedClasses_pairwise (hfiled.nameOf ▸ r'.sortedClasses_pairwise)
    intro a b ha hb hab hba
    have ha := List.mem_mergeSort.mp ha
    have hb := List.mem_mergeSort.mp (hperm.mem_iff.mpr hb)
    exact List.inj_on_of_nodup_map hnames ha hb (String.le_antisymm hab hba)
  refine ⟨hfiled,?_,hsorted⟩
  funext name
  rw [← find?_sortedClasses,← find?_sortedClasses,hsorted,hfiled.nameOf]

/-- What registries have in common that hold the same model: the same answer to every question but the one for the
order in which classes were registered. -/
structure HoldsSame (r r' : Registry) : Prop where
  entities : r.entities.Perm r'.entities
  declarations : r.declarations.Perm r'.declarations
  nameOf : r.nameOf = r'.nameOf
  lookup? : r.lookup? = r'.lookup?
  descriptor : ∀ t, r.descriptor t = r'.descriptor t
  resolve : r.resolve = r'.resolve
  toRecord : r.toRecord = r'.toRecord
  compile : ∀ settings t maxDepth backend,
    Artifact.compile r settings t maxDepth backend = Artifact.compile r' settings t maxDepth backend

theorem ReadsAs.holdsSame (h : r.ReadsAs r') (htidy : r.Tidy) (htidy' : r'.Tidy)
    (hunder : ∀ name, r.under name = r'.under name) : HoldsSame r r' where
  entities := perm_of_filing? htidy.marked htidy'.marked fun name => congrArg Holding.marked (hunder name)
  declarations := perm_of_filing? htidy.declared htidy'.declared fun name => congrArg Holding.declared (hunder name)
  nameOf := h.nameOf
  lookup? := h.lookup?
  descriptor := h.descriptor
  resolve := h.resolve
  toRecord := h.toRecord
  compile := Artifact.compile_readsAs h

end Registry

namespace Demand

variable {q : Demand} {name : ClassName} {s t : CachedRegistry}

theorem after_others (hq : q.registers = true) (h : q.target ≠ some name) (s : CachedRegistry) :
    (q.after s).registry.under name = s.registry.under name := by
  rw [after,serve_step hq]
  exact q.concerns_step.others _ _ (Ne.symm h)

/-- What a registration leaves under the name of its class, and its answer, go by what was under that name. -/
theorem after_same (hq : q.registers = true) (h : q.target = some name)
    (hfrozen : s.registry.fingerprint = t.registry.fingerprint) (hunder : s.registry.under name = t.registry.under name) :
    (q.after s).registry.under name = (q.after t).registry.under name ∧ (q.serve.run s).1 = (q.serve.run t).1 := by
  obtain ⟨hanswer,hsame⟩ := q.concerns_step.same _ _ hfrozen fun other hother => by
    cases hother.trans h
    exact hunder
  rw [after,after,serve_step hq,serve_step hq,hanswer]
  exact ⟨hsame name h.symm,rfl⟩

theorem after_fingerprint (hq : q.registers = true) (s : CachedRegistry) :
    (q.after s).registry.fingerprint = s.registry.fingerprint := by
  rw [after,serve_step hq]
  exact q.concerns_step.fingerprint _

/-- A registration that is made for no class fails in the same way whenever it is made. -/
theorem serve_aimless (hq : q.registers = true) (h : q.target = none)
    (hfrozen : s.registry.fingerprint = t.registry.fingerprint) : (q.serve.run s).1 = (q.serve.run t).1 := by
  obtain ⟨hanswer,_⟩ := q.concerns_step.same _ _ hfrozen fun other hother => by
    rw [h] at hother
    cases hother
  rw [serve_step hq,serve_step hq,hanswer]

end Demand

namespace CachedRegistry

open Registry

variable {qs qs' : List Demand} {s t : CachedRegistry}

/-- A series of demands, each with its answer. -/
def answers (s : CachedRegistry) : List Demand → List (Demand × Except Error Unit)
  | [] => []
  | q :: rest => (q, (q.serve.run s).1) :: (q.after s).answers rest

/-- What a series of registrations leaves under the name of a class, and how those of that class are answered, is as if
no others were made. -/
theorem run_under (name : ClassName) (hqs : ∀ q ∈ qs, q.registers = true)
    (hfrozen : s.registry.fingerprint = t.registry.fingerprint) (hunder : s.registry.under name = t.registry.under name) :
    (s.run qs).registry.under name = (t.run (qs.filter (·.target = some name))).registry.under name ∧
    (s.answers qs).filter (·.1.target = some name) = t.answers (qs.filter (·.target = some name)) := by
  induction qs generalizing s t with
  | nil => exact ⟨hunder,rfl⟩
  | cons q rest ih =>
    obtain ⟨hq,hrest⟩ := List.forall_mem_cons.mp hqs
    have hkept := Demand.after_fingerprint hq s
    by_cases htarget : q.target = some name
    · -- a demand of the class itself is made in both series, on what is the same under its name
      obtain ⟨hsame,hanswer⟩ := Demand.after_same hq htarget hfrozen hunder
      have hkept' := Demand.after_fingerprint hq t
      obtain ⟨hrun,hanswers⟩ := ih hrest (hkept.trans (hfrozen.trans hkept'.symm)) hsame
      rw [answers,List.filter_cons_of_pos (by simpa using htarget),List.filter_cons_of_pos (by simpa using htarget)]
      refine ⟨hrun,?_⟩
      rw [answers,hanswers,hanswer]
    · -- any other demand is made in the first series alone, and leaves what is under the name
      have hothers := Demand.after_others hq htarget s
      rw [answers,List.filter_cons_of_neg (by simpa using htarget),List.filter_cons_of_neg (by simpa using htarget)]
      exact ih hrest (hkept.trans hfrozen) (hothers.trans hunder)

theorem answers_aimless (hqs : ∀ q ∈ qs, q.registers = true) (hfrozen : s.registry.fingerprint = t.registry.fingerprint) :
    (s.answers qs).filter (·.1.target = none) = (qs.filter (·.target = none)).map fun q => (q, (q.serve.run t).1) := by
  induction qs generalizing s with
  | nil => rfl
  | cons q rest ih =>
    obtain ⟨hq,hrest⟩ := List.forall_mem_cons.mp hqs
    have hanswers := ih hrest ((Demand.after_fingerprint hq s).trans hfrozen)
    rw [answers]
    by_cases htarget : q.target = none
    · rw [List.filter_cons_of_pos (by simpa using htarget),List.filter_cons_of_pos (by simpa using htarget),hanswers,
        List.map_cons,Demand.serve_aimless hq htarget hfrozen]
    · rw [List.filter_cons_of_neg (by simpa using htarget),List.filter_cons_of_neg (by simpa using htarget),hanswers]

/-- Two series of the same registrations, in which those of each class come in the same order. -/
structure Interleaves (qs qs' : List Demand) : Prop where
  registers : ∀ q ∈ qs, q.registers = true
  calls : qs.Perm qs'
  order : ∀ name, qs.filter (·.target = some name) = qs'.filter (·.target = some name)

theorem Interleaves.registers' (h : Interleaves qs qs') : ∀ q ∈ qs', q.registers = true :=
  fun q hq => h.registers q (h.calls.mem_iff.mpr hq)

/-- However registrations are interleaved, what stands under each name in the end, and how each is answered, is the
same. -/
theorem Interleaves.run (h : Interleaves qs qs') (s : CachedRegistry) (name : ClassName) :
    (s.run qs).registry.under name = (s.run qs').registry.under name ∧
    (s.answers qs).filter (·.1.target = some name) = (s.answers qs').filter (·.1.target = some name) := by
  obtain ⟨hrun,hanswers⟩ := run_under (s := s) (t := s) name h.registers rfl rfl
  obtain ⟨hrun',hanswers'⟩ := run_under (s := s) (t := s) name h.registers' rfl rfl
  rw [hrun,hanswers,h.order,hrun',hanswers']
  exact ⟨rfl,rfl⟩

theorem Interleaves.answers (h : Interleaves qs qs') (s : CachedRegistry) : (s.answers qs).Perm (s.answers qs') := by
  refine perm_of_filter (fun a => a.1.target) fun target => ?_
  cases target with
  | none =>
    -- demands that are made for no class may change places with each other, but each fails as ever
    rw [answers_aimless h.registers rfl,answers_aimless h.registers' rfl]
    exact (h.calls.filter _).map _
  | some name => rw [(h.run s name).2]

theorem run_fingerprint (hqs : ∀ q ∈ qs, q.registers = true) (s : CachedRegistry) :
    (s.run qs).registry.fingerprint = s.registry.fingerprint := by
  induction qs generalizing s with
  | nil => rfl
  | cons q rest ih =>
    obtain ⟨hq,hrest⟩ := List.forall_mem_cons.mp hqs
    exact (ih hrest (q.after s)).trans (Demand.after_fingerprint hq s)

theorem Coherent.freeze_answer (h : s.Coherent) : (Serving.freeze.run s).1 =
    s.registry.checkMutable .freeze >>= fun _ => s.registry.computeFingerprint := by
  rw [Serving.run_freeze h,Registry.freeze]
  cases s.registry.checkMutable .freeze with
  | error e => rfl
  | ok _ => cases s.registry.computeFingerprint <;> rfl

theorem Coherent.onCache_congr {α : Type} (hs : s.Coherent) (ht : t.Coherent)
    (h : ∀ cls, s.registry.descriptor cls = t.registry.descriptor cls) (client : Asking α) :
    (client.onCache s).1 = (client.onCache t).1 := by
  rw [(Asking.onCache_eq client hs).1,(Asking.onCache_eq client ht).1]
  induction client with
  | answer a => rfl
  | ask cls next ih => rw [Asking.onRegistry,Asking.onRegistry,h,ih]

/-- Registrations of different classes commute: however they are interleaved, each is answered alike, and where the
names of all classes differ in the end, the registries hold the same model, freeze to the same fingerprint or fail alike,
and answer every reader alike. -/
theorem registrations_commute {before : List Demand} {left left' : CachedRegistry} (hs : s = run {} before)
    (h : Interleaves qs qs') (hleft : left = s.run qs) (hleft' : left' = s.run qs')
    (hnames : (left.registry.classes.map left.registry.nameOf).Nodup) :
    ((s.answers qs).Perm (s.answers qs') ∧ ∀ name,
      (s.answers qs).filter (·.1.target = some name) = (s.answers qs').filter (·.1.target = some name)) ∧
    left.registry.HoldsSame left'.registry ∧
    (Serving.freeze.run left).1 = (Serving.freeze.run left').1 ∧
    ∀ {α : Type} (client : Asking α), (client.onCache left).1 = (client.onCache left').1 := by
  obtain ⟨hcoherent,htidy⟩ := coherent_tidy hs
  subst hleft hleft'
  have hcoherentLeft := (hcoherent.run qs).1
  have hcoherentLeft' := (hcoherent.run qs').1
  have htidyLeft := hcoherent.tidy_run htidy qs
  have htidyLeft' := hcoherent.tidy_run htidy qs'
  have hunder (name : ClassName) : (s.run qs).registry.under name = (s.run qs').registry.under name := (h.run s name).1
  have reads := readsAs_of_under htidyLeft htidyLeft' hunder hnames
  refine ⟨⟨h.answers s,fun name => (h.run s name).2⟩,reads.holdsSame htidyLeft htidyLeft' hunder,?_,fun client => ?_⟩
  · have hfingerprint : (s.run qs).registry.fingerprint = (s.run qs').registry.fingerprint := by
      rw [run_fingerprint h.registers,run_fingerprint h.registers']
    rw [hcoherentLeft.freeze_answer,hcoherentLeft'.freeze_answer,checkMutable_congr hfingerprint,
      reads.computeFingerprint]
  · exact hcoherentLeft.onCache_congr hcoherentLeft' reads.descriptor client

/-- Demands to name seats, and to declare the name of parts. -/
def nameSeats : Demand := .entity (.cls seat) (some "Chair") none (.list [])

def nameParts : Demand := .property (.cls part) (.str "name") [("type", .type (.builtin .text))]

theorem interleaves_seats : Interleaves [linkSeats, nameSeats, nameParts] [nameParts, linkSeats, nameSeats] where
  registers q hq := by
    simp only [List.mem_cons,List.not_mem_nil,or_false] at hq
    rcases hq with rfl | rfl | rfl <;> rfl
  calls := @List.perm_append_comm _ [linkSeats, nameSeats] [nameParts]
  order name := by
    have hseat : linkSeats.target = some seat.name := rfl
    have hseat' : nameSeats.target = some seat.name := rfl
    have hpart : nameParts.target = some part.name := rfl
    simp only [List.filter_cons,List.filter_nil,hseat,hseat',hpart]
    by_cases hname : name = seat.name
    · have hother : part.name ≠ seat.name := by decide
      simp [hname,hother]
    · simp [Ne.symm hname]

theorem registrations_commute_seats : ∃ left left',
    left = run {} [linkSeats, nameSeats, nameParts] ∧ left' = run {} [nameParts, linkSeats, nameSeats] ∧
    left.registry.classes.map left.registry.nameOf = ["Chair", "Part"] ∧
    left'.registry.classes.map left'.registry.nameOf = ["Chair", "Part"] ∧
    left.registry.declarations.map (·.1.name) = [seat.name, part.name] ∧
    left'.registry.declarations.map (·.1.name) = [part.name, seat.name] ∧
    left.registry.HoldsSame left'.registry ∧ (Serving.freeze.run left).1 = (Serving.freeze.run left').1 := by
  have hnames : (run {} [linkSeats, nameSeats, nameParts]).registry.classes.map
      (run {} [linkSeats, nameSeats, nameParts]).registry.nameOf = ["Chair", "Part"] := by
    with_unfolding_all rfl
  have hstart : ({} : CachedRegistry) = run {} [] := rfl
  obtain ⟨_,hsame,hfreeze,_⟩ := registrations_commute hstart interleaves_seats rfl rfl (by rw [hnames]; decide)
  refine ⟨_,_,rfl,rfl,hnames,?_,?_,?_,hsame,hfreeze⟩ <;> with_unfolding_all rfl

end CachedRegistry

end Trischema
