import Trischema.Proofs.Json.Compatible
import Trischema.Proofs.Registry.Names

/-!
Complete registries. Freezing goes through the export, which is there where registered classes have descriptors and
their links targets. The values in it come from the enumerated values, the defaults and the links of properties; the
rest of an export are names, texts and flags.
-/

namespace Trischema

variable {P : Value → Prop}

section Entries

variable {α : Type} {name : String}

@[simp]
theorem held_optionalEntry {toValue : α → Value} {o : Option α} :
    Held P (optionalEntry name toValue o) ↔ ∀ a, o = some a → P (toValue a) := by
  cases o <;> simp [optionalEntry]

theorem Value.ByParts.flagEntry (hP : ByParts P) (b : Bool) : Held P (Trischema.flagEntry name b) := by
  cases b with
  | false => exact held_nil
  | true => exact held_cons.mpr ⟨hP.bool true,held_nil⟩

theorem Value.ByParts.togetherEntry (hP : ByParts P) (groups : List (List String)) : Held P (Descriptor.togetherEntry groups) := by
  rw [Descriptor.togetherEntry]
  split
  · exact held_nil
  · refine held_cons.mpr ⟨(hP.list _).mpr (List.forall_mem_map.mpr fun group _ => ?_),held_nil⟩
    exact hP.texts group

end Entries

theorem exists_mapM_iff {α β : Type} {f : α → Except Error β} {Q : β → Prop} {xs : List α} :
    (∃ ys, xs.mapM f = .ok ys ∧ ∀ y ∈ ys, Q y) ↔ ∀ x ∈ xs, ∃ y, f x = .ok y ∧ Q y := by
  constructor
  · rintro ⟨ys,hys,hall⟩ x hx
    obtain ⟨y,hy,hfx⟩ := exists_right_of_forall₂ (mapM_eq_ok.mp hys) hx
    exact ⟨y,hfx,hall y hy⟩
  · intro h
    obtain ⟨ys,hys⟩ := forall₂_of_forall h
    refine ⟨ys,mapM_eq_ok.mpr (hys.imp fun _ _ h => h.1),fun y hy => ?_⟩
    obtain ⟨_,_,_,hy⟩ := exists_left_of_forall₂ hys hy
    exact hy

namespace Relationship

variable {rel : Relationship Value}

/-- Whether the direction and the cardinality of a link are known values with a property. -/
structure Tells (P : Value → Prop) (rel : Relationship Value) : Prop where
  direction : ∃ v, rel.direction.toValue Direction.text = .ok v ∧ P v
  cardinality : ∃ v, rel.cardinalityValue = .ok v ∧ P v

theorem summary_tells (hP : Value.ByParts P) (target : Option String) :
    (∃ v, rel.summary target = .ok v ∧ P v) ↔ rel.Tells P := by
  have hentries (direction cardinality : Value) :
      P (.record (rel.summaryEntries direction cardinality target)) ↔ P direction ∧ P cardinality := by
    simp [hP.record_iff,summaryEntries,hP.str,hP.bool]
  constructor
  · rintro ⟨_,hsummary,hv⟩
    obtain ⟨direction,cardinality,hdirection,hcardinality,rfl⟩ := summary_eq_ok.mp hsummary
    obtain ⟨hd,hc⟩ := (hentries _ _).mp hv
    exact ⟨⟨direction,hdirection,hd⟩,⟨cardinality,hcardinality,hc⟩⟩
  · rintro ⟨⟨direction,hdirection,hd⟩,⟨cardinality,hcardinality,hc⟩⟩
    exact ⟨_,summary_eq_ok.mpr ⟨direction,cardinality,hdirection,hcardinality,rfl⟩,(hentries _ _).mpr ⟨hd,hc⟩⟩

end Relationship

namespace Property

variable {p : Property}

/-- Whether what is listed of a property besides names and flags has a property: its enumerated values, its default as
it is exported, and what its link tells. -/
structure Tells (P : Value → Prop) (p : Property) : Prop where
  enum : ∀ vs, p.enum = some vs → ∀ v ∈ vs, P v
  default : ∀ v, p.default = some v → P v.rendered
  relationship : ∀ rel, p.relationship = some rel → rel.Tells P

theorem tells_of_none (henum : p.enum = none) (hdefault : p.default = none) (hrel : p.relationship = none) : p.Tells P :=
  ⟨by simp [henum],by simp [hdefault],by simp [hrel]⟩

theorem toRecord_tells (hP : Value.ByParts P) (target : Option String) :
    (∃ v, p.toRecord target = .ok v ∧ P v) ↔ p.Tells P := by
  have hentries (rest : List (String × Value)) : P (.record (p.exportEntries rest)) ↔
      (∀ vs, p.enum = some vs → ∀ v ∈ vs, P v) ∧ (∀ v, p.default = some v → P v.rendered) ∧ Held P rest := by
    simp [hP.record_iff,exportEntries,hP.list,hP.str,hP.bool,hP.flagEntry]
  rw [toRecord]
  cases hrel : p.relationship with
  | none =>
    constructor
    · rintro ⟨_,⟨⟩,hv⟩
      obtain ⟨henum,hdefault,_⟩ := (hentries []).mp hv
      exact ⟨henum,hdefault,fun rel h => by rw [hrel] at h; cases h⟩
    · intro h
      exact ⟨_,rfl,(hentries []).mpr ⟨h.enum,h.default,held_nil⟩⟩
  | some rel =>
    constructor
    · rintro ⟨v,h,hv⟩
      obtain ⟨_,hrest,h⟩ := bind_eq_ok.mp h
      obtain ⟨summary,hsummary,rfl⟩ := map_eq_ok.mp hrest
      cases pure_eq_ok.mp h
      obtain ⟨henum,hdefault,hlink⟩ := (hentries [("relationship", summary)]).mp hv
      refine ⟨henum,hdefault,fun rel' h => ?_⟩
      cases hrel.symm.trans h
      exact (Relationship.summary_tells hP target).mp ⟨summary,hsummary,(held_cons.mp hlink).1⟩
    · intro h
      obtain ⟨summary,hsummary,hlink⟩ := (Relationship.summary_tells hP target).mpr (h.relationship rel hrel)
      dsimp only
      rw [hsummary]
      exact ⟨_,rfl,(hentries [("relationship", summary)]).mpr ⟨h.enum,h.default,held_cons.mpr ⟨hlink,held_nil⟩⟩⟩

end Property

namespace Descriptor

variable {d : Descriptor}

theorem recordOf_iff (hP : Value.ByParts P) (listed : List Value) : P (d.recordOf listed) ↔ ∀ v ∈ listed, P v := by
  simp [recordOf,hP.record_iff,hP.str,hP.bool,hP.list,hP.togetherEntry]

/-- The listing of a class has a property that goes by parts just where all of its properties do. -/
theorem toRecord_tells (hP : Value.ByParts P) : (∃ v, d.toRecord = .ok v ∧ P v) ↔ ∀ p ∈ d.properties, p.Tells P := by
  simp only [← Property.toRecord_tells hP none]
  rw [← exists_mapM_iff]
  constructor
  · rintro ⟨_,h,hv⟩
    obtain ⟨listed,hlisted,h⟩ := bind_eq_ok.mp h
    cases pure_eq_ok.mp h
    exact ⟨listed,hlisted,(recordOf_iff hP listed).mp hv⟩
  · rintro ⟨listed,hlisted,hall⟩
    exact ⟨_,bind_eq_ok.mpr ⟨listed,hlisted,rfl⟩,(recordOf_iff hP listed).mpr hall⟩

end Descriptor

namespace Registry

variable {r : Registry} {c c' : Class Value} {p : Property} {d : Descriptor} {Q : Property → Prop}

/-- Whether registered classes have descriptors, and their links targets. -/
def Complete (r : Registry) : Prop := ∀ c ∈ r.classes, ∃ d, r.merge c = .ok d ∧
  ∀ p ∈ d.properties, ∀ rel, p.relationship = some rel → ∃ target, r.resolve c p.key rel = .ok target

/-- Whether the merged properties of registered classes have a property. -/
def EveryProperty (Q : Property → Prop) (r : Registry) : Prop :=
  ∀ c ∈ r.classes, ∀ d, r.merge c = .ok d → ∀ p ∈ d.properties, Q p

theorem complete_of_toRecord {record : Value} (h : r.toRecord = .ok record) : r.Complete := by
  intro c hc
  obtain ⟨d,hd,htargets⟩ := CachedRegistry.exported_complete h hc
  refine ⟨d,hd,fun p hp rel hrel => ?_⟩
  obtain ⟨target,htarget⟩ := htargets p hp (by rw [hrel]; rfl)
  refine ⟨target,?_⟩
  rwa [resolveProperty,hrel] at htarget

theorem freeze_toRecord {fingerprint : String} {frozen : Registry} (h : r.freeze = .ok (fingerprint, frozen)) :
    ∃ record, frozen.toRecord = .ok record := by
  obtain ⟨_,hfingerprint,rfl⟩ := freeze_eq_ok.mp h
  obtain ⟨record,hrecord,_⟩ := bind_eq_ok.mp hfingerprint
  exact ⟨record,by rw [withFingerprint_toRecord,hrecord]⟩

theorem exportProperty_tells (hP : Value.ByParts P)
    (htarget : ∀ rel, p.relationship = some rel → ∃ target, r.resolve c p.key rel = .ok target) :
    (∃ v, r.exportProperty c p = .ok v ∧ P v) ↔ p.Tells P := by
  rw [exportProperty]
  cases hrel : p.relationship with
  | none => exact Property.toRecord_tells hP none
  | some rel =>
    obtain ⟨target,htarget⟩ := htarget rel hrel
    dsimp only
    rw [htarget]
    exact Property.toRecord_tells hP _

theorem exportClass_tells (hP : Value.ByParts P) (hd : r.merge c = .ok d)
    (htargets : ∀ p ∈ d.properties, ∀ rel, p.relationship = some rel → ∃ target, r.resolve c p.key rel = .ok target) :
    (∃ v, r.exportClass c = .ok v ∧ P v) ↔ ∀ p ∈ d.properties, p.Tells P := by
  constructor
  · rintro ⟨_,h,hv⟩
    obtain ⟨d',listed,hd',hlisted,rfl⟩ := exportClass_ok h
    cases hd.symm.trans hd'
    intro p hp
    refine (exportProperty_tells hP (htargets p hp)).mp ?_
    obtain ⟨v,hv',hp⟩ := exists_right_of_forall₂ (mapM_eq_ok.mp hlisted) hp
    exact ⟨v,hp,(Descriptor.recordOf_iff hP listed).mp hv v hv'⟩
  · intro h
    obtain ⟨_,hlisting,_⟩ := (Descriptor.toRecord_tells hP).mpr h
    obtain ⟨listed,hlisted,hall⟩ := exists_mapM_iff.mpr fun p hp => (exportProperty_tells hP (htargets p hp)).mpr (h p hp)
    refine ⟨d.recordOf listed,?_,(Descriptor.recordOf_iff hP listed).mpr hall⟩
    rw [exportClass,hd,ok_bind,hlisting,ok_bind,hlisted]
    rfl

/-- The export of a registry whose classes have descriptors and targets has a property that goes by parts just where all
merged properties do. -/
theorem Complete.toRecord_tells (h : r.Complete) (hP : Value.ByParts P) :
    (∃ v, r.toRecord = .ok v ∧ P v) ↔ r.EveryProperty (·.Tells P) := by
  have hclass (c : Class Value) (hc : c ∈ r.classes) : (∃ v, r.exportClass c = .ok v ∧ P v) ↔
      ∀ d, r.merge c = .ok d → ∀ p ∈ d.properties, p.Tells P := by
    obtain ⟨d,hd,htargets⟩ := h c hc
    rw [exportClass_tells hP hd htargets,hd]
    simp only [Except.ok.injEq,forall_eq']
  have hrecord (vs : List Value) : P (.record [("entities", .list vs)]) ↔ ∀ v ∈ vs, P v := by
    simp [hP.record_iff,hP.list]
  have hsorted : (∃ vs, r.sortedClasses.mapM r.exportClass = .ok vs ∧ ∀ v ∈ vs, P v) ↔ r.EveryProperty (·.Tells P) := by
    rw [exists_mapM_iff]
    simp only [sortedClasses,List.mem_mergeSort]
    exact forall₂_congr hclass
  rw [← hsorted]
  constructor
  · rintro ⟨_,h,hv⟩
    obtain ⟨vs,hvs,h⟩ := bind_eq_ok.mp h
    cases pure_eq_ok.mp h
    exact ⟨vs,hvs,(hrecord vs).mp hv⟩
  · rintro ⟨vs,hvs,hall⟩
    exact ⟨_,bind_eq_ok.mpr ⟨vs,hvs,rfl⟩,(hrecord vs).mpr hall⟩

/-- An open registry can be frozen just where it is complete and its exported values can be written, be it as the text
that stands for them. -/
theorem freeze_iff (hopen : r.frozen = false) : (∃ fingerprint frozen, r.freeze = .ok (fingerprint, frozen)) ↔
    r.Complete ∧ r.EveryProperty (·.Tells (Value.Fits .asText)) := by
  constructor
  · rintro ⟨fingerprint,frozen,h⟩
    obtain ⟨_,h,_⟩ := freeze_eq_ok.mp h
    obtain ⟨record,hrecord,h⟩ := bind_eq_ok.mp h
    obtain ⟨text,htext,_⟩ := bind_eq_ok.mp h
    have hcomplete := complete_of_toRecord hrecord
    have hfits := (Value.exists_toJsonText _).mp ⟨text,htext⟩
    exact ⟨hcomplete,(hcomplete.toRecord_tells Value.byParts_fits).mp ⟨record,hrecord,hfits⟩⟩
  · rintro ⟨hcomplete,htells⟩
    obtain ⟨record,hrecord,hfits⟩ := (hcomplete.toRecord_tells Value.byParts_fits).mpr htells
    obtain ⟨text,htext⟩ := (Value.exists_toJsonText .compact).mpr hfits
    have hfingerprint : r.computeFingerprint = .ok ("sha256:" ++ Sha256.hexDigest text) := by
      rw [computeFingerprint,hrecord,ok_bind,htext]
      rfl
    exact ⟨_,_,freeze_eq_ok.mpr ⟨hopen,hfingerprint,rfl⟩⟩

theorem everyProperty_single (hclasses : r.classes = [c]) (hd : r.merge c = .ok d) :
    r.EveryProperty Q ↔ ∀ p ∈ d.properties, Q p := by
  rw [EveryProperty,hclasses,List.forall_mem_singleton,hd]
  simp only [Except.ok.injEq,forall_eq']

theorem withFingerprint_everyProperty {f : Option String} : (r.withFingerprint f).EveryProperty Q ↔ r.EveryProperty Q := by
  have hclasses : (r.withFingerprint f).classes = r.classes := rfl
  rw [EveryProperty,EveryProperty,(r.readsAs_withFingerprint f).merge,hclasses]

theorem complete_single (hclasses : r.classes = [c]) (hd : r.merge c = .ok d) : r.Complete ↔
    ∀ p ∈ d.properties, ∀ rel, p.relationship = some rel → ∃ target, r.resolve c p.key rel = .ok target := by
  rw [Complete,hclasses,List.forall_mem_singleton,hd]
  simp only [Except.ok.injEq,exists_eq_left']

theorem freeze_of_complete (hopen : r.frozen = false) (h : r.Complete)
    (htells : r.EveryProperty (·.Tells (Value.Fits .asText))) :
    ∃ fingerprint, r.freeze = .ok (fingerprint, r.withFingerprint (some fingerprint)) := by
  obtain ⟨fingerprint,frozen,hfreeze⟩ := (freeze_iff hopen).mpr ⟨h,htells⟩
  obtain ⟨_,_,rfl⟩ := freeze_eq_ok.mp hfreeze
  exact ⟨fingerprint,hfreeze⟩

/-- A registry of one class is frozen where its links have targets and its values can be written. -/
theorem freeze_single (hopen : r.frozen = false) (hclasses : r.classes = [c]) (hd : r.merge c = .ok d)
    (htargets : ∀ p ∈ d.properties, ∀ rel, p.relationship = some rel → ∃ target, r.resolve c p.key rel = .ok target)
    (htells : ∀ p ∈ d.properties, p.Tells (Value.Fits .asText)) :
    ∃ fingerprint, r.freeze = .ok (fingerprint, r.withFingerprint (some fingerprint)) :=
  freeze_of_complete hopen ((complete_single hclasses hd).mpr htargets) ((everyProperty_single hclasses hd).mpr htells)

/-- The identifier of a class that has none of its own. -/
def ownIdentifier : Property where
  key := "id"
  type := .builtin .identifier
  isIdentifier := true
  default := some (.callable .generateId)
  classification := some (.single .identifier)
  synthetic := true

theorem ownIdentifier_tells (hP : Value.ByParts P) : ownIdentifier.Tells P := by
  refine ⟨fun _ h => ?_,fun v hv => ?_,fun _ h => ?_⟩
  · cases h
  · cases hv
    exact hP.str _
  · cases h

/-- An address, which is kept inline. -/
def address : Class Value := ⟨.defined "Address" 0 [.builtin .valueObject, .builtin .object], none⟩

/-- A parcel, which is sent to an address and may replace another. -/
def parcel : Class Value := ⟨.defined "Parcel" 1 [.builtin .object], none⟩

/-- The link from a parcel to the one that it replaces, with the size on its edge. -/
def replaced : Relationship Value where
  edgeType := "REPLACES"
  target := .named "Parcel"
  direction := .known .outgoing
  cardinality := some (.known .manyToOne)
  owner := false
  inverse := .null
  joinColumns := []
  joinTable := .null
  cascade := .flag false
  eager := false
  edgeProperties := ["size"]

/-- The registry of parcels and their addresses. -/
def parcels : Registry where
  declarations := [
    (address, [("city", { type := some (.builtin .text) })]),
    (parcel, [("size", { type := some (.builtin .text), enum := some [.str "S", .str "L"], default := some (.str "S") }),
      ("to", { type := some (.cls address) }),
      ("replaces", { relationship := some replaced })])]

/-- The declarations that make it. -/
def declareParcels : Except Error Registry := do
  let r ← ({} : Registry).registerProperty (.cls address) (.str "city") [("type", .type (.builtin .text))]
  let r ← r.registerProperty (.cls parcel) (.str "size")
    [("type", .type (.builtin .text)), ("enum", .list [.str "S", .str "L"]), ("default", .str "S")]
  let r ← r.registerProperty (.cls parcel) (.str "to") [("type", .type (.cls address))]
  r.registerRelationship (.cls parcel) (.str "replaces")
    [("edge_type", .str "REPLACES"), ("target", .str "Parcel"), ("cardinality", .str "many-to-one"),
      ("edge_properties", .list [.str "size"])]

theorem parcels_declared : declareParcels = .ok parcels := by with_unfolding_all rfl

def city : Property where
  key := "city"
  type := .builtin .text
  classification := some (.single (.primitive .string))

def addressDescriptor : Descriptor := ⟨address, "Address", [city], true, []⟩

def parcelSize : Property where
  key := "size"
  type := .builtin .text
  enum := some [.str "S", .str "L"]
  default := some (.str "S")
  classification := some (.single (.enumerated .string [.str "S", .str "L"]))

def parcelAddress : Property where
  key := "to"
  type := .cls address
  classification := some (.single (.embedded address))

def parcelLink : Property where
  key := "replaces"
  relationship := some replaced
  classification := some (.relationship replaced)

def parcelDescriptor : Descriptor := ⟨parcel, "Parcel", [ownIdentifier, parcelSize, parcelAddress, parcelLink], false, []⟩

theorem addresses_merge : parcels.merge address = .ok addressDescriptor := by with_unfolding_all rfl

theorem parcels_merge : parcels.merge parcel = .ok parcelDescriptor := by with_unfolding_all rfl

theorem parcels_everyProperty : parcels.EveryProperty Q ↔
    Q city ∧ Q ownIdentifier ∧ Q parcelSize ∧ Q parcelAddress ∧ Q parcelLink := by
  have hclasses : parcels.classes = [address, parcel] := rfl
  simp [EveryProperty,hclasses,addresses_merge,parcels_merge,addressDescriptor,parcelDescriptor]

theorem parcels_complete : parcels.Complete := by
  intro c hc
  have hc : c ∈ [address, parcel] := hc
  rcases List.mem_pair.mp hc with rfl | rfl
  · refine ⟨addressDescriptor,addresses_merge,fun p hp rel hrel => ?_⟩
    cases List.mem_singleton.mp hp
    cases hrel
  · refine ⟨parcelDescriptor,parcels_merge,fun p hp rel hrel => ?_⟩
    simp only [parcelDescriptor,List.mem_cons,List.not_mem_nil,or_false] at hp
    rcases hp with rfl | rfl | rfl | rfl
    · cases hrel
    · cases hrel
    · cases hrel
    · cases hrel
      exact ⟨parcel,rfl⟩

theorem parcels_tells (hP : Value.ByParts P) : parcels.EveryProperty (·.Tells P) := by
  have hsize : parcelSize.Tells P := by
    refine ⟨fun vs hvs => ?_,fun v hv => ?_,fun rel hrel => ?_⟩
    · cases hvs
      exact List.forall_mem_cons.mpr ⟨hP.str _,List.forall_mem_singleton.mpr (hP.str _)⟩
    · cases hv
      exact hP.str _
    · cases hrel
  have hlink : parcelLink.Tells P := by
    refine ⟨fun vs hvs => ?_,fun v hv => ?_,fun rel hrel => ?_⟩
    · cases hvs
    · cases hv
    · cases hrel
      exact ⟨⟨_,rfl,hP.str _⟩,⟨_,rfl,hP.str _⟩⟩
  exact parcels_everyProperty.mpr ⟨Property.tells_of_none rfl rfl rfl,ownIdentifier_tells hP,hsize,
    Property.tells_of_none rfl rfl rfl,hlink⟩

theorem parcels_freeze : ∃ fingerprint, parcels.freeze = .ok (fingerprint, parcels.withFingerprint (some fingerprint)) :=
  freeze_of_complete rfl parcels_complete (parcels_tells Value.byParts_fits)

/-- Parts that have one property besides their identifier. -/
def partDescriptor (p : Property) : Descriptor := ⟨part, "Part", [ownIdentifier, p], false, []⟩

theorem mem_partDescriptor {q : Property} : q ∈ (partDescriptor p).properties ↔ q = ownIdentifier ∨ q = p := by
  simp [partDescriptor]

theorem parts_freeze (hopen : r.frozen = false) (hclasses : r.classes = [part])
    (hd : r.merge part = .ok (partDescriptor p)) (hplain : p.relationship = none) (htells : p.Tells (Value.Fits .asText)) :
    ∃ fingerprint, r.freeze = .ok (fingerprint, r.withFingerprint (some fingerprint)) := by
  refine freeze_single hopen hclasses hd (fun q hq rel hrel => ?_) (fun q hq => ?_)
  · rcases mem_partDescriptor.mp hq with rfl | rfl
    · cases hrel
    · rw [hplain] at hrel
      cases hrel
  · rcases mem_partDescriptor.mp hq with rfl | rfl
    · exact ownIdentifier_tells Value.byParts_fits
    · exact htells

end Registry

end Trischema
