import Mathlib.Data.List.Induction
import Trischema.Proofs.Registry.Stability

/-!
The order in which a registry lists its classes. Classes that were marked and classes that declare something are filed
apart, each in the order of the first call of its kind that was accepted. All that were marked are listed before all
others, which is the order of registration only where no class that was marked was preceded by one that never was.
-/

namespace Trischema

theorem eraseDups_snoc {α : Type} [BEq α] [LawfulBEq α] (xs : List α) (x : α) :
    (xs ++ [x]).eraseDups = if x ∈ xs then xs.eraseDups else xs.eraseDups ++ [x] := by
  split
  · rename_i hx
    exact eraseDups_append_known (List.cons_subset.mpr ⟨hx,List.nil_subset _⟩)
  · rename_i hx
    rw [List.eraseDups_append]
    congr 1
    simp [List.removeAll,hx,List.eraseDups_cons]

theorem filter_eraseDups {α : Type} [BEq α] [LawfulBEq α] (p : α → Bool) (xs : List α) :
    xs.eraseDups.filter p = (xs.filter p).eraseDups := by
  induction xs using List.reverseRecOn with
  | nil => rfl
  | append_singleton xs x ih =>
    rw [eraseDups_snoc,List.filter_append,List.filter_singleton]
    cases hx : p x with
    | true =>
      have hmem : x ∈ xs.filter p ↔ x ∈ xs := by simp [hx]
      rw [cond_true,eraseDups_snoc]
      by_cases h : x ∈ xs
      · rw [if_pos h,if_pos (hmem.mpr h),ih]
      · rw [if_neg h,if_neg (mt hmem.mp h),List.filter_append,ih]
        simp [hx]
    | false =>
      rw [cond_false,List.append_nil]
      split
      · exact ih
      · rw [List.filter_append,ih]
        simp [hx]

namespace RegistryCall

/-- Whether a call marks its class as part of the model. -/
def marks : RegistryCall → Bool
  | entity .. => true
  | _ => false

/-- The calls that are accepted, of some that are made one after another up to the first that fails. -/
def accepted : List RegistryCall → CachedRegistry → List RegistryCall
  | [], _ => []
  | call :: rest, s =>
    match call.make.run s with
    | (.ok _, left) => call :: accepted rest left
    | (.error _, _) => []

/-- The classes that calls are made for, in the order of the first call for each. -/
def order (calls : List RegistryCall) : List ClassName := (calls.filterMap target).eraseDups

end RegistryCall

/-- What is done to a registry at one time: calls that are made one after another up to the first that fails, or a
demand. -/
inductive Turn
  | together (calls : List RegistryCall)
  | demand (q : Demand)

namespace Turn

def after : Turn → CachedRegistry → CachedRegistry
  | together calls, s => ((RegistryCall.each calls).run s).2
  | demand q, s => q.after s

/-- The single calls of a turn that are accepted. -/
def accepted : Turn → CachedRegistry → List RegistryCall
  | together calls, s => RegistryCall.accepted calls s
  | demand q, s => RegistryCall.accepted q.calls s

/-- What turns leave of a registry. -/
def run (s : CachedRegistry) (turns : List Turn) : CachedRegistry := turns.foldl (fun s turn => turn.after s) s

/-- The calls of a series of turns that are accepted. -/
def history (s : CachedRegistry) : List Turn → List RegistryCall
  | [] => []
  | turn :: rest => turn.accepted s ++ history (turn.after s) rest

end Turn

namespace Registry

open RegistryCall

variable {r r' : Registry} {calls more : List RegistryCall} {call : RegistryCall}

/-- Whether the tables of a registry have the classes of calls, in the order of the first call of their kind. -/
structure Files (r : Registry) (calls : List RegistryCall) : Prop where
  marked : r.entities.map (·.1.name) = order (calls.filter (·.marks))
  declared : r.declarations.map (·.1.name) = order (calls.filter (!·.marks))

theorem fileUnder_names {β : Type} (table : List (Class Value × β)) (c : Class Value) (new : β) (change : β → β) :
    (fileUnder table c new change).map (·.1.name) =
      if c.name ∈ table.map (·.1.name) then table.map (·.1.name) else table.map (·.1.name) ++ [c.name] := by
  induction table with
  | nil => rfl
  | cons entry rest ih =>
    obtain ⟨d,b⟩ := entry
    rw [fileUnder]
    by_cases h : d.name = c.name
    · simp [h]
    · rw [if_neg h,List.map_cons,ih]
      by_cases hmem : c.name ∈ rest.map (·.1.name)
      · simp [hmem]
      · simp [hmem,Ne.symm h]

theorem order_snoc {name : ClassName} (htarget : call.target = some name) :
    order (calls ++ [call]) = if name ∈ order calls then order calls else order calls ++ [name] := by
  simp only [order,List.filterMap_append,List.filterMap_cons,htarget,List.filterMap_nil,eraseDups_snoc,List.mem_eraseDups]

theorem fileUnder_order {β : Type} {table : List (Class Value × β)} {c : Class Value} {new : β} {change : β → β}
    (htable : table.map (·.1.name) = order calls) (htarget : call.target = some c.name) :
    (fileUnder table c new change).map (·.1.name) = order (calls ++ [call]) := by
  rw [fileUnder_names,htable,order_snoc htarget]

theorem Files.mark (hfiles : r.Files calls) (hmarks : call.marks = true) {c : Class Value}
    (htarget : call.target = some c.name) (change : Registration → Registration) :
    Files { r with entities := fileUnder r.entities c {} change } (calls ++ [call]) where
  marked := by
    rw [List.filter_append,List.filter_singleton,hmarks]
    exact fileUnder_order hfiles.marked htarget
  declared := by
    rw [List.filter_append,List.filter_singleton,hmarks]
    exact hfiles.declared.trans (by simp)

theorem Files.declare (hfiles : r.Files calls) (hmarks : call.marks = false) {c : Class Value}
    (htarget : call.target = some c.name) (change : OptionTable → OptionTable) :
    Files { r with declarations := fileUnder r.declarations c [] change } (calls ++ [call]) where
  marked := by
    rw [List.filter_append,List.filter_singleton,hmarks]
    exact hfiles.marked.trans (by simp)
  declared := by
    rw [List.filter_append,List.filter_singleton,hmarks]
    exact fileUnder_order hfiles.declared htarget

theorem Files.property (hfiles : r.Files calls) (hmarks : call.marks = false) {cls : TypeExpr Value}
    (htarget : call.target = targetOf cls) {key : Value} {es : List (Value × Value)} (h : r.registerEntries cls key es = .ok r') :
    r'.Files (calls ++ [call]) := by
  rw [registerEntries_eq] at h
  obtain ⟨⟨c,key,o⟩,hread,h⟩ := bind_eq_ok.mp h
  obtain ⟨_,_,h⟩ := bind_eq_ok.mp h
  cases h
  obtain ⟨rfl,_,_⟩ := ofEntries_ok hread
  exact hfiles.declare hmarks htarget _

theorem Files.outcome (hfiles : r.Files calls) (h : call.outcome r = .ok r') : r'.Files (calls ++ [call]) := by
  cases call with
  | entity cls name embedded together =>
    obtain ⟨c,change,rfl,_,rfl⟩ := registerEntity_ok h
    exact hfiles.mark rfl rfl change
  | property cls key options named =>
    obtain ⟨given,_,h⟩ := bind_eq_ok.mp h
    exact hfiles.property rfl rfl h
  | relationship cls key options named =>
    obtain ⟨relationship,_,h⟩ := bind_eq_ok.mp h
    exact hfiles.property rfl rfl h

end Registry

namespace RegistryCall

open Registry

theorem each_files {s : CachedRegistry} {calls : List RegistryCall} (hfiles : s.registry.Files calls)
    (more : List RegistryCall) : ((each more).run s).2.registry.Files (calls ++ accepted more s) := by
  induction more generalizing s calls with
  | nil => exact (List.append_nil calls).symm ▸ hfiles
  | cons call rest ih =>
    rw [each_cons,accepted,run_make,Serving.run_change]
    cases houtcome : call.outcome s.registry with
    | error e => exact (List.append_nil calls).symm ▸ hfiles
    | ok r =>
      rw [List.append_cons]
      exact ih (s := { s with registry := r }) (hfiles.outcome houtcome)

end RegistryCall

namespace Turn

open Registry

variable {s : CachedRegistry} {calls : List RegistryCall}

theorem after_coherent (h : s.Coherent) (turn : Turn) : (turn.after s).Coherent := by
  cases turn with
  | together calls => exact RegistryCall.each_coherent h calls
  | demand q => exact (Demand.after_coherent h q).1

theorem after_files (h : s.Coherent) (hfiles : s.registry.Files calls) (turn : Turn) :
    (turn.after s).registry.Files (calls ++ turn.accepted s) := by
  cases turn with
  | together more => exact RegistryCall.each_files hfiles more
  | demand q =>
    rw [after,accepted]
    cases hregisters : q.registers with
    | true =>
      rw [Demand.after,Demand.serve_calls hregisters]
      exact RegistryCall.each_files hfiles q.calls
    | false =>
      -- a demand that registers nothing makes no calls, and at most keeps a fingerprint
      obtain ⟨fingerprint,hsame⟩ := Demand.after_unregistered hregisters h
      have hnone : q.calls = [] := by cases q <;> first | rfl | cases hregisters
      rw [hsame,hnone,RegistryCall.accepted,List.append_nil]
      exact ⟨hfiles.marked,hfiles.declared⟩

theorem run_files (h : s.Coherent) (hfiles : s.registry.Files calls) (turns : List Turn) :
    (run s turns).registry.Files (calls ++ history s turns) := by
  induction turns generalizing s calls with
  | nil => exact (List.append_nil calls).symm ▸ hfiles
  | cons turn rest ih =>
    rw [history,← List.append_assoc]
    exact ih (turn.after_coherent h) (after_files h hfiles turn)

end Turn

namespace Registry

open RegistryCall

variable {r : Registry} {calls more : List RegistryCall} {name : ClassName}

theorem mem_order : name ∈ order calls ↔ ∃ call ∈ calls, call.target = some name := by
  rw [order,List.mem_eraseDups,List.mem_filterMap]

theorem order_nodup (calls : List RegistryCall) : (order calls).Nodup := eraseDups_nodup _

/-- Where no class of a marking call is chosen, the classes that are chosen come from the other calls. -/
theorem filter_order (p : ClassName → Bool)
    (h : ∀ call ∈ calls, call.marks = true → ∀ name, call.target = some name → p name = false) :
    (order (calls.filter (!·.marks))).filter p = (order calls).filter p := by
  rw [order,order,filter_eraseDups,filter_eraseDups]
  congr 1
  induction calls with
  | nil => rfl
  | cons call rest ih =>
    obtain ⟨hcall,hrest⟩ := List.forall_mem_cons.mp h
    rw [List.filter_cons]
    cases hmarks : call.marks with
    | true =>
      rw [Bool.not_true,if_neg Bool.false_ne_true,ih hrest,List.filterMap_cons]
      cases htarget : call.target with
      | none => rfl
      | some name => rw [List.filter_cons,hcall hmarks name htarget,if_neg Bool.false_ne_true]
    | false =>
      rw [Bool.not_false,if_pos rfl,List.filterMap_cons,List.filterMap_cons]
      cases htarget : call.target with
      | none => exact ih hrest
      | some name => rw [List.filter_cons,List.filter_cons,ih hrest]

/-- The classes that calls mark, in the order of the first call that marks each. -/
def markedOrder (calls : List RegistryCall) : List ClassName := order (calls.filter (·.marks))

theorem markedOrder_subset : markedOrder calls ⊆ order calls := by
  intro name hname
  obtain ⟨call,hcall,htarget⟩ := mem_order.mp hname
  exact mem_order.mpr ⟨call,(List.mem_filter.mp hcall).1,htarget⟩

theorem filter_markedOrder (calls : List RegistryCall) :
    (order (calls.filter (!·.marks))).filter (· ∉ markedOrder calls) = (order calls).filter (· ∉ markedOrder calls) := by
  refine filter_order _ fun call hcall hmarks name htarget => decide_eq_false (not_not.mpr ?_)
  exact mem_order.mpr ⟨call,List.mem_filter.mpr ⟨hcall,hmarks⟩,htarget⟩

/-- The classes that were marked are listed before those that only declare. -/
theorem Files.listed (h : r.Files calls) :
    r.classes.map (·.name) = markedOrder calls ++ (order calls).filter (· ∉ markedOrder calls) := by
  have hmarked : (r.entities.map (·.1)).map (·.name) = markedOrder calls := by
    rw [List.map_map]
    exact h.marked
  have hfilter (cs : List (Class Value)) : (cs.filter (!(markedOrder calls).contains ·.name)).map (·.name) =
      (cs.map (·.name)).filter (· ∉ markedOrder calls) := by
    rw [List.filter_map]
    congr 1
    refine List.filter_congr fun c _ => ?_
    simp
  rw [← filter_markedOrder,← h.declared,classes,List.map_append,hmarked,hfilter,List.map_map]
  rfl

theorem Files.perm (h : r.Files calls) : (r.classes.map (·.name)).Perm (order calls) := by
  have hchosen : ((order calls).filter (· ∈ markedOrder calls)).Perm (markedOrder calls) := by
    refine (List.perm_ext_iff_of_nodup ((order_nodup calls).filter _) (order_nodup _)).mpr fun name => ?_
    rw [List.mem_filter,decide_eq_true_iff]
    exact and_iff_right_of_imp fun hname => markedOrder_subset hname
  have hsplit := List.filter_append_perm (· ∈ markedOrder calls) (order calls)
  rw [h.listed]
  refine ((hchosen.symm.append_right _).trans ?_)
  simpa only [decide_not] using hsplit

/-- The order of registration is kept exactly where the classes that were marked come first in it. -/
theorem Files.ordered (h : r.Files calls) :
    r.classes.map (·.name) = order calls ↔ markedOrder calls <+: order calls := by
  rw [h.listed]
  constructor
  · intro heq
    rw [← heq]
    exact List.prefix_append _ _
  · rintro ⟨rest,hrest⟩
    -- no class is twice in the order, so what follows the marked ones has none of them
    have hnodup := order_nodup calls
    rw [← hrest] at hnodup
    have hdisjoint := List.disjoint_of_nodup_append hnodup
    have hnone : (markedOrder calls).filter (· ∉ markedOrder calls) = [] :=
      List.filter_eq_nil_iff.mpr fun c hc => by simpa using hc
    have hall : rest.filter (· ∉ markedOrder calls) = rest :=
      List.filter_eq_self.mpr fun c hc => decide_eq_true fun hmem => hdisjoint hmem hc
    rw [← hrest,List.filter_append,hnone,hall,List.nil_append]

def named (r : Registry) (name : ClassName) : String := ((filed? r.entities name).getD {}).name.getD name.text

theorem nameOf_eq (r : Registry) (c : Class Value) : r.nameOf c = r.named c.name := by
  rw [nameOf,named,registration]
  cases ((filed? r.entities c.name).getD {}).name <;> rfl

theorem Files.found (h : r.Files calls) (name : String) : (r.lookup? name).map (·.name) =
    ((markedOrder calls).find? fun c => r.named c == name).or ((order calls).find? fun c => r.named c == name) := by
  have hlookup : (r.lookup? name).map (·.name) = (r.classes.map (·.name)).find? fun c => r.named c == name := by
    rw [lookup?,List.find?_map]
    simp only [nameOf_eq]
    rfl
  rw [hlookup,h.listed,List.find?_append]
  cases hfound : (markedOrder calls).find? fun c => r.named c == name with
  | some c => rfl
  | none =>
    -- no marked class has the name, so it makes no difference whether they are left out of the order
    rw [Option.none_or,Option.none_or,List.find?_filter]
    refine congrArg (List.find? · (order calls)) (funext fun c => ?_)
    by_cases hc : (r.named c == name) = true
    · have hmem : c ∉ markedOrder calls := fun hmem => List.find?_eq_none.mp hfound c hmem hc
      rw [hc]
      exact decide_eq_true ⟨decide_eq_true hmem,rfl⟩
    · rw [Bool.eq_false_iff.mpr hc]
      exact decide_eq_false fun h => Bool.false_ne_true h.2

end Registry

namespace Turn

open Registry RegistryCall

/-- Whatever is done to a new registry, with calls of every kind accepted or refused: it lists the classes of the calls
that were accepted, each once, but those that were marked before those that only declare, each in the order of the first
such call. That is the order of registration exactly where the classes that were marked come first in it. A name is that
of the first class that was marked and has the name, else of the first class of all; that is the class that was
registered first exactly where no other one was marked under the name. -/
theorem marked_listed_first (turns : List Turn) :
    let r := (run {} turns).registry
    let calls := history {} turns
    (r.classes.map (·.name)).Perm (order calls) ∧ (order calls).Nodup ∧
    r.classes.map (·.name) = markedOrder calls ++ (order calls).filter (· ∉ markedOrder calls) ∧
    (r.classes.map (·.name) = order calls ↔ markedOrder calls <+: order calls) ∧
    ∀ name, let first := (order calls).find? fun c => r.named c == name
      let marked := (markedOrder calls).find? fun c => r.named c == name
      (r.lookup? name).map (·.name) = marked.or first ∧
      ((r.lookup? name).map (·.name) = first ↔ ∀ c, marked = some c → first = some c) := by
  intro r calls
  have hnew : Files {} [] := ⟨rfl,rfl⟩
  have hfiles : r.Files calls := run_files (CachedRegistry.coherent_new {}) hnew turns
  refine ⟨hfiles.perm,order_nodup calls,hfiles.listed,hfiles.ordered,fun name => ⟨hfiles.found name,?_⟩⟩
  rw [hfiles.found name]
  cases (markedOrder calls).find? fun c => r.named c == name with
  | none => exact iff_of_true rfl nofun
  | some c =>
    rw [Option.some_or]
    exact ⟨fun h c' hc' => by rw [← h,hc'],fun h => (h c rfl).symm⟩

open CachedRegistry

/-- A property of parts is declared first, and seats are marked under the name of parts then. -/
def partsThenSeats : List Turn :=
  [.demand nameParts, .together [.entity (.cls seat) (some "Part") none (.list [])]]

/-- Parts were registered first, but seats are listed before them, and have their name. -/
theorem marked_listed_first_seats : order (history {} partsThenSeats) = [part.name, seat.name] ∧
    (run {} partsThenSeats).registry.classes.map (·.name) = [seat.name, part.name] ∧
    ((run {} partsThenSeats).registry.lookup? "Part").map (·.name) = some seat.name :=
  ⟨by with_unfolding_all rfl,by with_unfolding_all rfl,by with_unfolding_all rfl⟩

end Turn

end Trischema
