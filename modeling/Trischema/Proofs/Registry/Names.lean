import Trischema.CommandLine.Running
import Trischema.Proofs.Compiling.Naming
import Trischema.Proofs.Registry.Commuting

/-!
The names under which classes are found. No registration asks whether a name is taken: a name finds the first class in
the list of registered classes that has it, and names tell classes apart just where they differ.
-/

namespace Trischema

namespace Registry

variable {r r' : Registry} {c d : Class Value} {name : String}

theorem classes_names_nodup (h : r.Tidy) : (r.classes.map (·.name)).Nodup := by
  have hmarked : ((r.entities.map (·.1)).map (·.name)).Nodup := by
    rw [List.map_map]
    exact h.marked
  have hdeclared : ((r.declarations.map (·.1)).map (·.name)).Nodup := by
    rw [List.map_map]
    exact h.declared
  rw [classes,List.map_append,List.nodup_append]
  refine ⟨hmarked,hdeclared.sublist (List.filter_sublist.map _),fun name hname other hother heq => ?_⟩
  obtain ⟨d,hd,rfl⟩ := List.mem_map.mp hother
  have hfresh := (List.mem_filter.mp hd).2
  rw [Bool.not_eq_true',← Bool.not_eq_true,List.contains_iff_mem] at hfresh
  exact hfresh (heq ▸ hname)

theorem lookup?_eq_some {before after : List (Class Value)} (h : r.Tidy) (hplace : r.classes = before ++ c :: after) :
    r.lookup? (r.nameOf c) = some c ↔ ∀ b ∈ before, r.nameOf b ≠ r.nameOf c := by
  have hnodup : r.classes.Nodup := (classes_names_nodup h).of_map
  rw [hplace] at hnodup
  have hfresh : c ∉ before := fun hmem => (List.disjoint_of_nodup_append hnodup) hmem List.mem_cons_self
  rw [lookup?,hplace,List.find?_append]
  constructor
  · intro hfound b hb heq
    obtain ⟨d,hd⟩ : ∃ d, before.find? (fun b => r.nameOf b == r.nameOf c) = some d := by
      rw [← Option.isSome_iff_exists,List.find?_isSome]
      exact ⟨b,hb,by simpa using heq⟩
    rw [hd] at hfound
    cases hfound
    exact hfresh (List.mem_of_find?_eq_some hd)
  · intro hothers
    have hnone : before.find? (fun b => r.nameOf b == r.nameOf c) = none := by
      rw [List.find?_eq_none]
      intro b hb
      simpa using hothers b hb
    rw [hnone]
    simp

/-- The name of a registered class finds one that has it. -/
theorem exists_lookup? (hc : c ∈ r.classes) :
    ∃ d ∈ r.classes, r.lookup? (r.nameOf c) = some d ∧ r.nameOf d = r.nameOf c := by
  obtain ⟨d,hd⟩ : ∃ d, r.lookup? (r.nameOf c) = some d := by
    rw [lookup?,← Option.isSome_iff_exists,List.find?_isSome]
    exact ⟨c,hc,by simp⟩
  exact ⟨d,List.mem_of_find?_eq_some hd,hd,by simpa using List.find?_some hd⟩

/-- Every registered class is found under its name just where no two have the same. -/
theorem lookup?_nameOf_iff (h : r.Tidy) :
    (∀ c ∈ r.classes, r.lookup? (r.nameOf c) = some c) ↔ (r.classes.map r.nameOf).Nodup := by
  rw [List.nodup_map_iff_inj_on (classes_names_nodup h).of_map]
  constructor
  · intro hfound c hc d hd heq
    have hc := hfound c hc
    rw [heq,hfound d hd] at hc
    exact (Option.some.inj hc).symm
  · intro hinj c hc
    obtain ⟨d,hd,hfound,hname⟩ := exists_lookup? hc
    rw [hfound,hinj d hd c hc hname]

/-- A name that is given for a target is that of the one class that has it. -/
theorem resolve_named (h : r.Tidy) (hnames : (r.classes.map r.nameOf).Nodup) (key : String) {rel : Relationship Value}
    (hrel : rel.target = .named name) (hd : d ∈ r.classes) : r.resolve c key rel = .ok d ↔ r.nameOf d = name := by
  simp only [resolve,hrel]
  constructor
  · intro hresolve
    cases hfound : r.lookup? name with
    | none =>
      rw [hfound] at hresolve
      cases hresolve
    | some d' =>
      rw [hfound] at hresolve
      cases hresolve
      simpa using List.find?_some hfound
  · rintro rfl
    rw [(lookup?_nameOf_iff h).mpr hnames d hd]

theorem artifactsOf_name {settings : Except Error Settings} {entry : String × Value}
    (h : r.artifactsOf settings c = .ok entry) : r.nameOf c = entry.1 := by
  obtain ⟨d,hd,h⟩ := bind_eq_ok.mp h
  obtain ⟨artifacts,_,h⟩ := bind_eq_ok.mp h
  cases pure_eq_ok.mp h
  obtain ⟨_,hmerged⟩ := merge_cases (descriptor_registered hd)
  exact hmerged.name.symm

/-- The document of all classes with their artifacts by name. -/
def snapshotOf (r : Registry) (compiled : List (String × Value)) : Except Error String := do
  let exported ← r.toRecord
  document (.record [("version", .int 1), ("fingerprint", .str (r.fingerprint.getD "unfrozen")),
    ("schema", exported), ("compiled", .record compiled)])

/-- Where no two names are the same, a snapshot has the artifacts of every class, in the order of the classes. -/
theorem snapshotText_eq {settings : Except Error Settings} {compiled : List (String × Value)}
    (h : r.classes.mapM (r.artifactsOf settings) = .ok compiled) (hnames : (r.classes.map r.nameOf).Nodup) :
    compiled.map (·.1) = r.classes.map r.nameOf ∧ r.snapshotText settings = r.snapshotOf compiled := by
  have hkeys : r.classes.map r.nameOf = compiled.map (·.1) :=
    map_eq_of_forall₂ (mapM_eq_ok.mp h) fun c entry => artifactsOf_name
  rw [hkeys] at hnames
  rw [snapshotText,h,ok_bind,Value.keyed,(collapse_eq_self compiled).mpr hnames]
  exact ⟨hkeys.symm,rfl⟩

end Registry

namespace CachedRegistry

open Registry

/-- A name finds the first class that has it, in the order in which classes are listed, where those marked as entities
come before those that only have declarations. Every class is found by its name just where all names differ; then a target
that is given by a name is the one class of that name, and a snapshot has one entry for each class. -/
theorem lookup_first (demands : List Demand) :
    let r := (run {} demands).registry
    (∀ before c after, r.classes = before ++ c :: after →
      ∃ d, r.lookup? (r.nameOf c) = some d ∧ r.nameOf d = r.nameOf c ∧
        (d = c ↔ ∀ b ∈ before, r.nameOf b ≠ r.nameOf c)) ∧
    ((∀ c ∈ r.classes, r.lookup? (r.nameOf c) = some c) ↔ (r.classes.map r.nameOf).Nodup) ∧
    ((r.classes.map r.nameOf).Nodup →
      (∀ c key (rel : Relationship Value) name, rel.target = .named name →
        ∀ d ∈ r.classes, r.resolve c key rel = .ok d ↔ r.nameOf d = name) ∧
      ∀ settings compiled, r.classes.mapM (r.artifactsOf settings) = .ok compiled →
        compiled.map (·.1) = r.classes.map r.nameOf ∧ r.snapshotText settings = r.snapshotOf compiled) := by
  intro r
  obtain ⟨_,htidy⟩ : (run {} demands).Coherent ∧ r.Tidy := coherent_tidy rfl
  refine ⟨fun before c after hplace => ?_,lookup?_nameOf_iff htidy,fun hnames => ⟨?_,?_⟩⟩
  · have hmem : c ∈ r.classes := by
      rw [hplace]
      exact List.mem_append_right _ List.mem_cons_self
    obtain ⟨d,_,hd,hname⟩ := exists_lookup? hmem
    refine ⟨d,hd,hname,?_⟩
    rw [← lookup?_eq_some htidy hplace,hd]
    exact Option.some_inj.symm
  · intro c key rel name hrel d hd
    exact resolve_named htidy hnames key hrel hd
  · intro settings compiled hcompiled
    exact snapshotText_eq hcompiled hnames

/-- Another class that is called part. -/
def sparePart : Class Value := ⟨.defined "Part" 1 [.builtin .object], none⟩

/-- The demand to mark these under a name of their own. -/
def nameSpares : Demand := .entity (.cls sparePart) (some "Spare") none (.list [])

/-- Seats are named chairs here, and of the two classes that are called part one is named spare, so that each name finds
its class. -/
theorem lookup_first_parts :
    let r := (run {} [linkSeats, nameSeats, nameParts, nameSpares]).registry
    sparePart.name.text = part.name.text ∧
    r.lookup? "Chair" = some seat ∧ r.lookup? "Spare" = some sparePart ∧ r.lookup? "Part" = some part ∧
    (∀ c key (rel : Relationship Value), rel.target = .named "Part" → r.resolve c key rel = .ok part) ∧
    ∃ compiled, r.classes.mapM (r.artifactsOf (.ok Settings.defaults)) = .ok compiled ∧
      compiled.map (·.1) = ["Chair", "Spare", "Part"] ∧ r.snapshotText (.ok Settings.defaults) = r.snapshotOf compiled := by
  intro r
  obtain ⟨_,hfound,hdistinct⟩ := lookup_first [linkSeats, nameSeats, nameParts, nameSpares]
  have hclasses : r.classes = [seat, sparePart, part] := by with_unfolding_all rfl
  have hseat : r.nameOf seat = "Chair" := by with_unfolding_all rfl
  have hspare : r.nameOf sparePart = "Spare" := by with_unfolding_all rfl
  have hpart : r.nameOf part = "Part" := by with_unfolding_all rfl
  have hnames : r.classes.map r.nameOf = ["Chair", "Spare", "Part"] := by simp [hclasses,hseat,hspare,hpart]
  have hnodup : (r.classes.map r.nameOf).Nodup := by
    rw [hnames]
    decide
  have hmem : seat ∈ r.classes ∧ sparePart ∈ r.classes ∧ part ∈ r.classes := by simp [hclasses]
  have hlookup := hfound.mpr hnodup
  obtain ⟨hresolve,hsnapshot⟩ := hdistinct hnodup
  obtain ⟨compiled,hcompiled⟩ := exists_ok_of_isOk
    (x := r.classes.mapM (r.artifactsOf (.ok Settings.defaults))) (by decide +kernel)
  obtain ⟨hkeys,htext⟩ := hsnapshot _ compiled hcompiled
  refine ⟨rfl,?_,?_,?_,fun c key rel hrel => ?_,compiled,hcompiled,hkeys.trans hnames,htext⟩
  · rw [← hseat]
    exact hlookup seat hmem.1
  · rw [← hspare]
    exact hlookup sparePart hmem.2.1
  · rw [← hpart]
    exact hlookup part hmem.2.2
  · exact (hresolve c key rel "Part" hrel part hmem.2.2).mpr hpart

/-- Demands to mark seats under the name of parts, and to declare a property of parts. -/
def sharedName : List Demand := [.entity (.cls seat) (some "Part") none (.list []), nameParts]

/-- Parts, which keep their own name, are not found under it where seats were given it before. -/
theorem lookup_shared : ¬ ∀ demands, let r := (run {} demands).registry
    ∀ c ∈ r.classes, r.lookup? (r.nameOf c) = some c := by
  intro h
  have hclasses : (run {} sharedName).registry.classes = [seat, part] := by with_unfolding_all rfl
  have hseat : (run {} sharedName).registry.lookup? ((run {} sharedName).registry.nameOf part) = some seat := by
    with_unfolding_all rfl
  have hpart := h sharedName part (by simp [hclasses])
  rw [hseat] at hpart
  have hname := congrArg Class.name (Option.some.inj hpart)
  simp [seat,part] at hname

end CachedRegistry

end Trischema
