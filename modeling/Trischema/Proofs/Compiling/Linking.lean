import Trischema.Proofs.Compiling.Exports
import Trischema.Proofs.Registry.Linking

/-!
What is exported of links. A descriptor and the artifacts of a class tell of the directions and the cardinalities of its
links, and they can be exported where these are known ones, as those of well-formed links are.
-/

namespace Trischema

namespace Relationship

variable {rel : Relationship Value}

theorem Chosen.tells (h : rel.Chosen) : rel.Tells fun _ => True where
  direction := by
    obtain ⟨hdirection,_⟩ := h
    cases hsame : rel.direction with
    | known d => exact ⟨_,rfl,trivial⟩
    | other v =>
      rw [hsame] at hdirection
      cases hdirection
  cardinality := by
    obtain ⟨_,hcardinality⟩ := h
    match hsame : rel.cardinality with
    | none => exact ⟨_,by rw [cardinalityValue,hsame]; rfl,trivial⟩
    | some (.known c) => exact ⟨_,by rw [cardinalityValue,hsame]; rfl,trivial⟩
    | some (.other v) =>
      rw [hsame] at hcardinality
      cases hcardinality

theorem Chosen.joins (h : rel.Chosen) : Joins (fun _ => True) rel where
  kind kind hkind := by
    have hknown := h.cardinality
    rw [hkind] at hknown
    cases kind with
    | known c => exact ⟨_,rfl,trivial⟩
    | other v => cases hknown
  inverse := trivial
  joinTable _ := trivial

end Relationship

theorem Value.byParts_any : ByParts fun _ => True where
  list _ := by simp
  record _ := by simp
  str _ := trivial
  bool _ := trivial
  null := trivial

namespace Descriptor

/-- Whether the links of a class have known directions and cardinalities. -/
def LinksChosen (d : Descriptor) : Prop := ∀ p ∈ d.properties, ∀ rel, p.relationship = some rel → rel.Chosen

variable {d : Descriptor}

theorem LinksChosen.exports (h : d.LinksChosen) : ∀ p ∈ d.properties, p.Exports fun _ => True := by
  intro p hp
  exact {
    tells := ⟨fun _ _ _ _ => trivial,fun _ _ => trivial,fun rel hrel => (h p hp rel hrel).tells⟩
    values := fun _ _ _ _ _ _ => trivial
    joins := fun rel hrel => (h p hp rel hrel).joins }

end Descriptor

/-- The artifacts that are compiled for a class, for each backend and at any depth. -/
inductive Artifact.IsCompiled (r : Registry) (c : Class Value) : Artifact → Prop
  | document {settings : Except Error Settings} {maxDepth : Option Int} {depth : Int} {embedded : Bool} {doc : Document}
      (h : Document.compile r settings (.cls c) maxDepth depth embedded = .ok doc) : IsCompiled r c (.document doc)
  | graph {settings : Except Error Settings} {g : Graph} (h : Graph.compile r settings (.cls c) = .ok g) :
      IsCompiled r c (.graph g)
  | relational {settings : Except Error Settings} {maxDepth : Option Int} {depth : Int} {t : Relational}
      (h : (Relational.compile r settings (.cls c) maxDepth depth).result = .ok t) : IsCompiled r c (.relational t)

/-- The export of an artifact fails for no link with a known direction and a known cardinality. -/
theorem Artifact.IsCompiled.exported {r : Registry} {c : Class Value} {artifact : Artifact} (h : artifact.IsCompiled r c)
    (hchosen : ∀ d, r.descriptor (.cls c) = .ok d → d.LinksChosen) : ∃ v, artifact.toRecord = .ok v := by
  have hexports (d : Descriptor) (hd : r.descriptor (.cls c) = .ok d) := (hchosen d hd).exports
  cases h with
  | document h => exact ⟨_,rfl⟩
  | graph h =>
    obtain ⟨v,hv,_⟩ := Graph.compile_exports Value.byParts_any hexports h
    exact ⟨v,hv⟩
  | relational h =>
    rcases Relational.compile_cases h with ⟨_,_,rfl⟩ | ⟨d,s,hd,_,h⟩
    · exact ⟨_,rfl⟩
    · obtain ⟨v,hv,_⟩ := Relational.ofDescriptor_exports Value.byParts_any (hexports d hd) h
      exact ⟨v,hv⟩

namespace Turn

open Relationship

/-- Whatever was done to a registry before, the options of a link that it accepts are stored as a link that is checked,
and that is well formed just where the options leave direction and cardinality out, name them or hold the members of
their sets. An open registry that refuses them stays as it is and blames the definition, unless they have a cardinality
that it has no word for, or not all keys are texts. Every link of a class was given to an accepted call, as it is or by
its options; where the links of a class have known directions and cardinalities, its descriptor and all artifacts that
are compiled for it are exported. -/
theorem links_told (turns : List Turn) :
    let s := run {} turns
    (∀ call cls key es, RegistryCall.Gives call cls key es →
      (∀ left, call.make.run s = (.ok ⟨⟩, left) → ∃ c k o rel, cls = .cls c ∧ key.text? = some k ∧
        (left.registry.declared c.name).lookup k = some o ∧ o.relationship = some rel ∧
        rel.Checked ∧ (rel.WellFormed ↔ Names (.ofEntries es))) ∧
      (s.registry.frozen = false → ∀ e left, call.make.run s = (.error e, left) →
        left = s ∧ (e.IsDefinition ∨ e = .failure .attribute ∧ Wordless (.ofEntries es) ∨
          e = .failure .kind ∧ call.HasOtherKeys))) ∧
    ∀ c d, (s.descriptor (.cls c)).1 = .ok d →
      (∀ p ∈ d.properties, ∀ rel, p.relationship = some rel → ∃ call ∈ history {} turns,
        call.Hands rel ∨ ∃ cls key es, call.Gives cls key es ∧ rel.Checked ∧ (rel.WellFormed ↔ Names (.ofEntries es))) ∧
      (d.LinksChosen → (∃ v, d.toRecord = .ok v) ∧
        ∀ artifact : Artifact, artifact.IsCompiled s.registry c → ∃ v, artifact.toRecord = .ok v) := by
  intro s
  have hcoherent : s.Coherent := run_coherent (CachedRegistry.coherent_new {}) turns
  refine ⟨fun call cls key es hgives => ⟨fun left haccepted => ?_,fun hopen e left hrefused => ?_⟩,fun c d hd => ?_⟩
  · rw [RegistryCall.run_make,Serving.run_change] at haccepted
    cases hout : call.outcome s.registry with
    | error e =>
      rw [hout] at haccepted
      cases haccepted
    | ok r =>
      rw [hout] at haccepted
      cases haccepted
      exact hgives.accepted hout
  · rw [RegistryCall.run_make,Serving.run_change] at hrefused
    cases hout : call.outcome s.registry with
    | error e' =>
      rw [hout] at hrefused
      cases hrefused
      exact ⟨rfl,hgives.refused hopen hout⟩
    | ok r =>
      rw [hout] at hrefused
      cases hrefused
  · rw [(hcoherent.descriptor _).1] at hd
    refine ⟨fun p hp rel hrel => ?_,fun hchosen => ⟨?_,fun artifact hcompiled => ?_⟩⟩
    -- the property that is carried through the turns: some accepted call declares the link
    · have hlinks : s.registry.LinksHold fun rel => ∃ call ∈ history {} turns, call.Declares rel :=
        run_links (CachedRegistry.coherent_new {}) (fun _ => List.forall_mem_nil _) turns
          fun call hcall rel hdeclares => ⟨call,hcall,hdeclares⟩
      obtain ⟨call,hcall,hhands | ⟨cls,key,es,owner,k,hgives,hbuilt⟩⟩ :=
        hlinks.merged (Registry.descriptor_registered hd) p hp rel hrel
      · exact ⟨call,hcall,.inl hhands⟩
      · exact ⟨call,hcall,.inr ⟨cls,key,es,hgives,ofEntries_checked hbuilt⟩⟩
    · obtain ⟨v,hv,_⟩ := (Descriptor.toRecord_tells Value.byParts_any).mpr fun p hp => (hchosen.exports p hp).tells
      exact ⟨v,hv⟩
    · refine hcompiled.exported fun d' hd' => ?_
      cases hd.symm.trans hd'
      exact hchosen

open CachedRegistry

/-- A link of orders to their parts, with some options. -/
def partOf (options : Given) : RegistryCall :=
  .relationship (.cls order) (.str "parts") (.record (("edge_type", .str "PART_OF") :: ("target", .str "Order") :: options)) []

/-- The registry that has that link alone. -/
def withPartOf (options : Given) : Except Error Unit × CachedRegistry := (partOf options).make.run (run {} [])

theorem partOf_gives (options : Given) : (partOf options).Gives (.cls order) (.str "parts")
    (Given.entries (("edge_type", .str "PART_OF") :: ("target", .str "Order") :: options)) :=
  .link (fun _ => nofun) (Options.overlaid_mapping _)

/-- Options that hold members of the library's own sets: both directions, and many to one. -/
def members : Given :=
  [("direction", .member Direction.both.member), ("cardinality", .member Cardinality.manyToOne.member)]

theorem links_told_orders : ∃ o rel, ((withPartOf members).2.registry.declared order.name).lookup "parts" = some o ∧
    o.relationship = some rel ∧ rel.WellFormed ∧
    ∃ d, ((run {} [.together [partOf members]]).descriptor (.cls order)).1 = .ok d ∧ ∃ v, d.toRecord = .ok v := by
  have haccepted : (partOf members).make.run (run {} []) = (.ok ⟨⟩, (withPartOf members).2) :=
    eq_of_isOk (by decide +kernel)
  obtain ⟨c,k,o,rel,hcls,hkey,hlookup,hrel,_,hformed⟩ :=
    ((links_told []).1 (partOf members) _ _ _ (partOf_gives members)).1 _ haccepted
  cases hcls
  cases hkey
  have hnames : Names (.ofEntries (Given.entries (("edge_type", .str "PART_OF") :: ("target", .str "Order") :: members))) := by
    rw [Given.ofEntries_entries]
    refine ⟨fun v hv => ?_,fun v hv => ?_⟩
    · cases hv
      exact .inr rfl
    · cases hv
      exact .inr (.inr rfl)
  refine ⟨o,rel,hlookup,hrel,hformed.mpr hnames,?_⟩
  have hlinks : ((run {} [.together [partOf members]]).descriptor (.cls order)).1.toOption.any (fun d =>
      d.properties.all fun p => p.relationship.all fun rel =>
        rel.direction.isKnown && rel.cardinality.all Choice.isKnown) = true := by
    decide +kernel
  obtain ⟨d,hd,hall⟩ := exists_ok_of_any hlinks
  refine ⟨d,hd,(((links_told [.together [partOf members]]).2 order d hd).2 fun p hp rel hrel => ?_).1⟩
  have hknown := List.all_eq_true.mp hall p hp
  rw [hrel] at hknown
  obtain ⟨hdirection,hcardinality⟩ := Bool.and_eq_true_iff.mp hknown
  exact ⟨hdirection,hcardinality⟩

/-- The number five is accepted for a direction, and the class cannot be exported then; for a cardinality of two columns
it ends the registration without blame. -/
theorem links_told_five : (withPartOf [("direction", .int 5)]).1 = .ok ⟨⟩ ∧
    (∃ d, ((withPartOf [("direction", .int 5)]).2.descriptor (.cls order)).1 = .ok d ∧ d.toRecord.isOk = false) ∧
    (withPartOf [("cardinality", .int 5), ("owner", .bool true), ("join_columns", .texts ["near", "far"])]).1 =
      .error (.failure .attribute) := by
  have hfails : ((withPartOf [("direction", .int 5)]).2.descriptor (.cls order)).1.toOption.any (fun d =>
      !d.toRecord.isOk) = true := by
    decide +kernel
  obtain ⟨d,hd,hfails⟩ := exists_ok_of_any hfails
  exact ⟨rfl,⟨d,hd,by simpa using hfails⟩,rfl⟩

end Turn

end Trischema
