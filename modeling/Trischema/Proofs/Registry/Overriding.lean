import Trischema.Proofs.Registry.Inheritance

/-!
Declarations over what domain bases bring. A domain base stands for what it brings at its own place of the lineage:
a declaration wins over it when it is made for a class before the base or for the base itself, and loses when it is
made for a class behind it.
-/

namespace Trischema

namespace Registry

variable {α : Type} {r : Registry} {lineage : List ClassName} {key : String} {part : Options → Option α}

/-- Whether a lineage reaches a domain base that brings a part before any class that declares it. -/
def IsInjected (r : Registry) (lineage : List ClassName) (key : String) (part : Options → Option α) : Prop :=
  Reaches (fun base => (injects? key part base).isSome = true) (fun name => r.declares? key part name = none) lineage

theorem inherited_declared (hpart : Options.IsPart part) (h : ¬r.IsInjected lineage key part) :
    part (r.inherited lineage key) = lineage.findSome? (r.declares? key part) := by
  rw [inherited_part hpart]
  induction lineage with
  | nil => rfl
  | cons name lineage ih =>
    rw [IsInjected,reaches_cons] at h
    rw [List.findSome?_cons,List.findSome?_cons]
    cases hdeclared : r.declares? key part name with
    | some a => rfl
    | none =>
      -- a base that brought the part would be reached here
      have hinjected : injects? key part name = none := by
        rw [Option.eq_none_iff_forall_ne_some]
        exact fun a ha => h ⟨hdeclared,.inl (by rw [ha]; rfl)⟩
      rw [hinjected]
      exact ih fun hrest => h ⟨hdeclared,.inr hrest⟩

theorem inherited_injected (hpart : Options.IsPart part) (h : r.IsInjected lineage key part) :
    part (r.inherited lineage key) = lineage.findSome? (injects? key part) ∧
      (lineage.findSome? (injects? key part)).isSome = true := by
  rw [inherited_part hpart]
  induction lineage with
  | nil =>
    obtain ⟨before,base,after,heq,_⟩ := h
    simp at heq
  | cons name lineage ih =>
    obtain ⟨hdeclared,hbase⟩ := reaches_cons.mp h
    rw [List.findSome?_cons,List.findSome?_cons,hdeclared]
    cases hinjected : injects? key part name with
    | some a => exact ⟨rfl,rfl⟩
    | none =>
      rw [hinjected] at hbase
      exact ih (hbase.resolve_left Bool.noConfusion)

theorem supplied_of_injected {base : ClassName} (hbase : base ∈ lineage)
    (hkey : (base.domainProperties.lookup key).isSome = true) : r.IsSupplied lineage key := by
  refine ⟨base,hbase,?_⟩
  rw [supplied?,Options.layered_isSome]
  exact .inr (.inl hkey)

end Registry

namespace CachedRegistry

open Registry

variable {c : Class Value} {s : CachedRegistry}

/-- A part that a domain base brings gives way exactly to the declarations that are made up to the base; among these
the most derived one wins. A key that is declared up to the base is there and not synthetic. -/
theorem descriptor_overrides {demands : List Demand} {d : Descriptor} (hs : s = run {} demands)
    (h : (s.descriptor (.cls c)).1 = .ok d) {base : ClassName} {key : String} (hbase : base ∈ c.lineage)
    (hkey : (base.domainProperties.lookup key).isSome = true) :
    (¬s.registry.IsSynthetic c.lineage key → key ∈ d.keys) ∧
      ∀ p ∈ d.properties, p.key = key →
        (p.synthetic = true ↔ s.registry.IsSynthetic c.lineage key) ∧
        ∃ o : Options, p.Carries o ∧ ∀ {α : Type} {part : Options → Option α}, Options.IsPart part →
          (¬s.registry.IsInjected c.lineage key part →
            part o = c.lineage.findSome? (s.registry.declares? key part)) ∧
          (s.registry.IsInjected c.lineage key part →
            part o = c.lineage.findSome? (injects? key part) ∧ (part o).isSome = true) := by
  obtain ⟨hcoherent,htidy⟩ := coherent_tidy hs
  rw [(hcoherent.descriptor (.cls c)).1] at h
  have inherits := htidy.inherits h
  have hsupplied : s.registry.IsSupplied c.lineage key := supplied_of_injected hbase hkey
  refine ⟨fun hdeclared => ?_,?_⟩
  · exact (inherits.keys key).mpr (.inl ⟨hsupplied,fun hdropped => hdeclared hdropped.2.1⟩)
  · rintro p hp rfl
    refine ⟨inherits.synthetic p hp hsupplied,_,inherits.parts p hp hsupplied,fun hpart => ⟨?_,?_⟩⟩
    · exact inherited_declared hpart
    · intro hinjected
      obtain ⟨heq,hsome⟩ := inherited_injected hpart hinjected
      exact ⟨heq,heq ▸ hsome⟩

/-- A class that is mixed into others. -/
def stamp : Class Value := ⟨.defined "Stamped" 0 [.builtin .object], none⟩

/-- Demands that declare a day of creation, and a text property `id`, for that class. -/
def stamped : List Demand :=
  [.property (.cls stamp) (.str "created_at") [("type", .type (.builtin .date))],
    .property (.cls stamp) (.str "id") [("type", .type (.builtin .text))]]

/-- A domain class into which that class is mixed before the domain base, or behind it. -/
def letter (behind : Bool) : Class Value where
  name := .defined "Letter" 1
    (if behind then [.builtin .entity, stamp.name, .builtin .object] else [stamp.name, .builtin .entity, .builtin .object])

def letters (behind : Bool) : List Demand := stamped ++ [declareText (letter behind) "title"]

theorem stamped_declares (behind : Bool) :
    (run {} (letters behind)).registry.declares? "created_at" Options.type stamp.name =
      some (.builtin .date) := by
  cases behind <;> with_unfolding_all rfl

theorem descriptor_overrides_letter : ∃ d p, ((run {} (letters false)).descriptor (.cls (letter false))).1 = .ok d ∧
    p ∈ d.properties ∧ p.key = "created_at" ∧ p.type = .builtin .date := by
  have hkeys : ((run {} (letters false)).descriptor (.cls (letter false))).1.map (·.keys) =
      .ok ["id", "created_at", "updated_at", "title"] := by
    with_unfolding_all rfl
  obtain ⟨d,hd,hdkeys⟩ := map_eq_ok.mp hkeys
  obtain ⟨p,hp,hpkey⟩ := List.mem_map.mp (show "created_at" ∈ d.keys by rw [hdkeys]; simp)
  obtain ⟨_,o,hcarries,hparts⟩ := (descriptor_overrides (show _ = run {} (letters false) from rfl) hd
    (show .builtin .entity ∈ (letter false).lineage by decide) (show _ = true by rfl)).2 p hp hpkey
  have hfirst : ¬(run {} (letters false)).registry.IsInjected (letter false).lineage "created_at" Options.type := by
    intro h
    obtain ⟨_,h | h⟩ := reaches_cons.mp h
    · cases h
    · have hnone := (reaches_cons.mp h).1
      rw [stamped_declares] at hnone
      cases hnone
  refine ⟨d,p,hd,hp,hpkey,?_⟩
  rw [hcarries.type,(hparts .type).1 hfirst]
  with_unfolding_all rfl

/-- What a class behind the domain base declares does not show. -/
theorem descriptor_overrides_behind :
    stamp.name ∈ (letter true).lineage ∧
    (run {} (letters true)).registry.declares? "created_at" Options.type stamp.name =
      some (.builtin .date) ∧
    ((run {} (letters true)).descriptor (.cls (letter true))).1.map (fun d =>
        ((d.get? "created_at").map (·.type), (d.get? "id").map (·.synthetic))) =
      .ok (some (.builtin .moment), some true) := by
  refine ⟨by decide,stamped_declares true,?_⟩
  with_unfolding_all rfl

end CachedRegistry

end Trischema
