import Trischema.Proofs.Json.Values
import Trischema.Proofs.Registry.Merging
import Trischema.Registry.Export

/-!
What the export of a registry tells. Registries with the same canonical text have classes of the same names
in the same order, with the same keys, flags and storage kinds, and with links of the same kind between them.
-/

namespace Trischema

open Value

section Entries

variable {α : Type} {name key : String}

theorem lookup_optionalEntry (toValue : α → Value) (o : Option α) :
    (optionalEntry name toValue o).lookup key = if key = name then o.map toValue else none := by
  by_cases h : key = name
  · cases o <;> simp [optionalEntry,h]
  · cases o <;> simp [optionalEntry,List.lookup_cons,h,beq_eq_false_iff_ne.mpr h]

theorem lookup_flagEntry (b : Bool) :
    (flagEntry name b).lookup key = if key = name then (if b then some (.bool true) else none) else none := by
  by_cases h : key = name
  · cases b <;> simp [flagEntry,h]
  · cases b <;> simp [flagEntry,List.lookup_cons,h,beq_eq_false_iff_ne.mpr h]

theorem optionalEntry_keys (toValue : α → Value) (o : Option α) :
    ((optionalEntry name toValue o).map (·.1)).Sublist [name] := by
  cases o with
  | none => exact List.nil_sublist _
  | some a => exact List.Sublist.refl _

theorem flagEntry_keys (b : Bool) : ((flagEntry name b).map (·.1)).Sublist [name] := by
  cases b with
  | false => exact List.nil_sublist _
  | true => exact List.Sublist.refl _

end Entries

namespace Relationship

/-- What the summary of a relationship lists. -/
def summaryEntries (r : Relationship Value) (direction cardinality : Value) (target : Option String) :
    List (String × Value) :=
  [("edge_type", .str r.edgeType), ("direction", direction), ("cardinality", cardinality),
    ("owner", .bool r.owner)] ++ optionalEntry "target" .str target

theorem summary_eq_ok {r : Relationship Value} {target : Option String} {v : Value} :
    r.summary target = .ok v ↔ ∃ direction cardinality, r.direction.toValue Direction.text = .ok direction ∧
      r.cardinalityValue = .ok cardinality ∧ v = .record (r.summaryEntries direction cardinality target) := by
  simp only [summary,bind_eq_ok,pure_eq_ok,eq_comm (b := v)]
  constructor
  · rintro ⟨direction,hdirection,cardinality,hcardinality,rfl⟩
    exact ⟨direction,cardinality,hdirection,hcardinality,rfl⟩
  · rintro ⟨direction,cardinality,hdirection,hcardinality,rfl⟩
    exact ⟨direction,hdirection,cardinality,hcardinality,rfl⟩

theorem summaryEntries_nodup (r : Relationship Value) (direction cardinality : Value) (target : Option String) :
    ((r.summaryEntries direction cardinality target).map (·.1)).Nodup := by
  have hkeys : ["edge_type", "direction", "cardinality", "owner", "target"].Nodup := by decide
  refine hkeys.sublist ?_
  rw [summaryEntries,List.map_append]
  exact (List.Sublist.refl ["edge_type", "direction", "cardinality", "owner"]).append (optionalEntry_keys _ _)

end Relationship

namespace Property

/-- What the export of a property lists. -/
def exportEntries (p : Property) (relationship : List (String × Value)) : List (String × Value) :=
  [("key", .str p.key), ("type", .str p.type.label)]
    ++ optionalEntry "kind" (fun k => .str (StorageKind.text k)) p.kind?
    ++ optionalEntry "unique" .bool p.unique
    ++ optionalEntry "optional" .bool p.optional
    ++ flagEntry "is_identifier" p.isIdentifier
    ++ optionalEntry "enum" .list p.enum
    ++ optionalEntry "default" Value.rendered p.default
    ++ relationship

variable {p p' : Property} {rest rest' : List (String × Value)}

/-- Whether the last entries of an export are at most one, for the relationship. -/
def IsLinkEntry (rest : List (String × Value)) : Prop := rest = [] ∨ ∃ v, rest = [("relationship", v)]

theorem exportEntries_nodup (p : Property) (hrest : IsLinkEntry rest) : ((p.exportEntries rest).map (·.1)).Nodup := by
  have hkeys : ["key", "type", "kind", "unique", "optional", "is_identifier", "enum", "default", "relationship"].Nodup := by
    decide
  refine hkeys.sublist ?_
  have hlink : (rest.map (·.1)).Sublist ["relationship"] := by
    rcases hrest with rfl | ⟨v,rfl⟩
    · exact List.nil_sublist _
    · exact List.Sublist.refl _
  simp only [exportEntries,List.map_append]
  exact ((((((((List.Sublist.refl ["key", "type"]).append (optionalEntry_keys _ _)).append
    (optionalEntry_keys _ _)).append (optionalEntry_keys _ _)).append (flagEntry_keys _)).append
    (optionalEntry_keys _ _)).append (optionalEntry_keys _ _)).append hlink)

/-- Under which keys the export of a property tells what. -/
theorem exportEntries_lookup (p : Property) (hrest : IsLinkEntry rest) :
    (p.exportEntries rest).lookup "key" = some (.str p.key) ∧
      (p.exportEntries rest).lookup "kind" = p.kind?.map (fun k => .str (StorageKind.text k)) ∧
      (p.exportEntries rest).lookup "unique" = p.unique.map .bool ∧
      (p.exportEntries rest).lookup "optional" = p.optional.map .bool ∧
      (p.exportEntries rest).lookup "is_identifier" = (if p.isIdentifier then some (.bool true) else none) ∧
      (p.exportEntries rest).lookup "relationship" = rest.lookup "relationship" := by
  have hnone (key : String) (hkey : key ≠ "relationship") : rest.lookup key = none := by
    rcases hrest with rfl | ⟨v,rfl⟩
    · rfl
    · simp [List.lookup_cons,beq_eq_false_iff_ne.mpr hkey]
  simp [exportEntries,List.lookup_append,lookup_optionalEntry,lookup_flagEntry,List.lookup_cons,hnone]

/-- Exports of properties that are written alike tell the same keys, storage kinds and flags. -/
theorem told_of_sameText (h : SameText (.record (p.exportEntries rest)) (.record (p'.exportEntries rest')))
    (hrest : IsLinkEntry rest) (hrest' : IsLinkEntry rest') :
    p.key = p'.key ∧ p.kind? = p'.kind? ∧ p.unique = p'.unique ∧ p.optional = p'.optional ∧
      p.isIdentifier = p'.isIdentifier ∧ Option.Rel SameText (rest.lookup "relationship") (rest'.lookup "relationship") := by
  have hsame := sameText_record h (exportEntries_nodup p hrest) (exportEntries_nodup p' hrest')
  obtain ⟨hkey,hkind,hunique,hoptional,hidentifier,hlink⟩ := exportEntries_lookup p hrest
  obtain ⟨hkey',hkind',hunique',hoptional',hidentifier',hlink'⟩ := exportEntries_lookup p' hrest'
  refine ⟨?_,?_,?_,?_,?_,?_⟩
  · have hrel := hsame "key"
    rw [hkey,hkey'] at hrel
    cases hrel with
    | some hrel => exact sameText_str hrel
  · have hrel := hsame "kind"
    rw [hkind,hkind'] at hrel
    refine eq_of_sameText (fun k k' htext => ?_) hrel
    have htext := sameText_str htext
    revert htext
    cases k <;> cases k' <;> decide
  · have hrel := hsame "unique"
    rw [hunique,hunique'] at hrel
    exact eq_of_sameText (fun _ _ => sameText_bool) hrel
  · have hrel := hsame "optional"
    rw [hoptional,hoptional'] at hrel
    exact eq_of_sameText (fun _ _ => sameText_bool) hrel
  · have hrel := hsame "is_identifier"
    rw [hidentifier,hidentifier'] at hrel
    revert hrel
    cases p.isIdentifier <;> cases p'.isIdentifier <;> first | exact fun _ => rfl | (intro hrel; cases hrel)
  · rw [← hlink,← hlink']
    exact hsame "relationship"

end Property

namespace Registry

variable {r r' : Registry} {c c' : Class Value} {d d' : Descriptor} {p p' : Property}

/-- What the exports of two links tell, when they are written alike. -/
structure LinkTold (r r' : Registry) (c c' : Class Value) (key : String) (rel rel' : Relationship Value) : Prop where
  edgeType : rel.edgeType = rel'.edgeType
  owner : rel.owner = rel'.owner
  direction : ∃ v w, rel.direction.toValue Direction.text = .ok v ∧ rel'.direction.toValue Direction.text = .ok w ∧
    SameText v w
  cardinality : ∃ v w, rel.cardinalityValue = .ok v ∧ rel'.cardinalityValue = .ok w ∧ SameText v w
  target : ∃ e e', r.resolve c key rel = .ok e ∧ r'.resolve c' key rel' = .ok e' ∧ r.nameOf e = r'.nameOf e'

/-- What the exports of two properties tell, when they are written alike. -/
structure PropertyTold (r r' : Registry) (c c' : Class Value) (p p' : Property) : Prop where
  key : p.key = p'.key
  kind : p.kind? = p'.kind?
  unique : p.unique = p'.unique
  optional : p.optional = p'.optional
  isIdentifier : p.isIdentifier = p'.isIdentifier
  relationship : Option.Rel (LinkTold r r' c c' p.key) p.relationship p'.relationship

/-- What the exports of two classes tell, when they are written alike. -/
structure ClassTold (r r' : Registry) (d d' : Descriptor) : Prop where
  name : d.name = d'.name
  embedded : d.embedded = d'.embedded
  together : d.together = d'.together
  properties : List.Forall₂ (PropertyTold r r' d.cls d'.cls) d.properties d'.properties

/-- The entry of an export for the relationship of a property. -/
inductive LinkEntry (r : Registry) (c : Class Value) (p : Property) : List (String × Value) → Prop
  | none (h : p.relationship = none) : LinkEntry r c p []
  | some {rel : Relationship Value} {e : Class Value} {v : Value} (h : p.relationship = some rel)
      (htarget : r.resolve c p.key rel = .ok e) (hsummary : rel.summary (some (r.nameOf e)) = .ok v) :
      LinkEntry r c p [("relationship", v)]

theorem LinkEntry.isLinkEntry {rest : List (String × Value)} (h : LinkEntry r c p rest) : Property.IsLinkEntry rest := by
  cases h with
  | none _ => exact .inl rfl
  | some _ _ _ => exact .inr ⟨_,rfl⟩

theorem exportProperty_ok {v : Value} (h : r.exportProperty c p = .ok v) :
    ∃ rest, LinkEntry r c p rest ∧ v = .record (p.exportEntries rest) := by
  rw [exportProperty] at h
  cases hrelationship : p.relationship with
  | none =>
    rw [hrelationship] at h
    change p.toRecord none = .ok v at h
    rw [Property.toRecord,hrelationship] at h
    cases h
    exact ⟨[],.none hrelationship,rfl⟩
  | some rel =>
    rw [hrelationship] at h
    obtain ⟨target,htarget,h⟩ := bind_eq_ok.mp h
    obtain ⟨e,he,rfl⟩ := map_eq_ok.mp htarget
    change p.toRecord (some (r.nameOf e)) = .ok v at h
    rw [Property.toRecord,hrelationship] at h
    obtain ⟨rest,hrest,h⟩ := bind_eq_ok.mp h
    obtain ⟨summary,hsummary,rfl⟩ := map_eq_ok.mp hrest
    cases pure_eq_ok.mp h
    exact ⟨_,.some hrelationship he hsummary,rfl⟩

theorem linkTold_of_sameText {rel rel' : Relationship Value} {e e' : Class Value} {v v' : Value}
    (htarget : r.resolve c p.key rel = .ok e) (hsummary : rel.summary (some (r.nameOf e)) = .ok v)
    (htarget' : r'.resolve c' p.key rel' = .ok e') (hsummary' : rel'.summary (some (r'.nameOf e')) = .ok v')
    (h : SameText v v') : LinkTold r r' c c' p.key rel rel' := by
  obtain ⟨direction,cardinality,hdirection,hcardinality,rfl⟩ := Relationship.summary_eq_ok.mp hsummary
  obtain ⟨direction',cardinality',hdirection',hcardinality',rfl⟩ := Relationship.summary_eq_ok.mp hsummary'
  have hsame := sameText_record h (rel.summaryEntries_nodup _ _ _) (rel'.summaryEntries_nodup _ _ _)
  have hdirectionText : SameText direction direction' := by
    cases hsame "direction" with
    | some hrel => exact hrel
  have hcardinalityText : SameText cardinality cardinality' := by
    cases hsame "cardinality" with
    | some hrel => exact hrel
  refine ⟨?_,?_,⟨direction,direction',hdirection,hdirection',hdirectionText⟩,
    ⟨cardinality,cardinality',hcardinality,hcardinality',hcardinalityText⟩,e,e',htarget,htarget',?_⟩
  · cases hsame "edge_type" with
    | some hrel => exact sameText_str hrel
  · cases hsame "owner" with
    | some hrel => exact sameText_bool hrel
  · cases hsame "target" with
    | some hrel => exact sameText_str hrel

/-- Exports of properties that are written alike. -/
theorem propertyTold_of_sameText {v v' : Value} (hv : r.exportProperty c p = .ok v)
    (hv' : r'.exportProperty c' p' = .ok v') (h : SameText v v') : PropertyTold r r' c c' p p' := by
  obtain ⟨rest,hrest,rfl⟩ := exportProperty_ok hv
  obtain ⟨rest',hrest',rfl⟩ := exportProperty_ok hv'
  obtain ⟨hkey,hkind,hunique,hoptional,hidentifier,hlink⟩ :=
    Property.told_of_sameText h hrest.isLinkEntry hrest'.isLinkEntry
  refine ⟨hkey,hkind,hunique,hoptional,hidentifier,?_⟩
  cases hrest with
  | none hnone =>
    cases hrest' with
    | none hnone' =>
      rw [hnone,hnone']
      exact .none
    | some _ _ _ => cases hlink
  | some hrel htarget hsummary =>
    cases hrest' with
    | none _ => cases hlink
    | some hrel' htarget' hsummary' =>
      rw [hrel,hrel']
      rw [← hkey] at htarget'
      cases hlink with
      | some hlink => exact .some (linkTold_of_sameText htarget hsummary htarget' hsummary' hlink)

/-- The export of a class lists the exports of its properties. -/
theorem exportClass_ok {v : Value} (h : r.exportClass c = .ok v) :
    ∃ d properties, r.merge c = .ok d ∧ d.properties.mapM (r.exportProperty c) = .ok properties ∧
      v = d.recordOf properties := by
  obtain ⟨d,hd,h⟩ := bind_eq_ok.mp h
  obtain ⟨_,_,h⟩ := bind_eq_ok.mp h
  obtain ⟨properties,hproperties,h⟩ := bind_eq_ok.mp h
  exact ⟨d,properties,hd,hproperties,(pure_eq_ok.mp h).symm⟩

/-- What the export of a class lists. -/
def classEntries (d : Descriptor) (properties : List Value) : List (String × Value) :=
  [("name", .str d.name), ("embedded", .bool d.embedded), ("properties", .list properties)]
    ++ Descriptor.togetherEntry d.together

theorem classEntries_nodup (d : Descriptor) (properties : List Value) :
    ((classEntries d properties).map (·.1)).Nodup := by
  have hplain : ["name", "embedded", "properties"].Nodup := by decide
  have hgroups : ["name", "embedded", "properties", "unique_together"].Nodup := by decide
  rw [classEntries,Descriptor.togetherEntry]
  cases d.together.isEmpty
  · exact hgroups
  · exact hplain

theorem together_of_sameText {groups groups' : List (List String)}
    (h : Option.Rel SameText ((Descriptor.togetherEntry groups).lookup "unique_together")
      ((Descriptor.togetherEntry groups').lookup "unique_together")) : groups = groups' := by
  have hlookup (groups : List (List String)) : (Descriptor.togetherEntry groups).lookup "unique_together" =
      if groups.isEmpty then none else some (.list (groups.map .texts)) := by
    rw [Descriptor.togetherEntry]
    cases groups.isEmpty <;> rfl
  rw [hlookup,hlookup] at h
  cases groups with
  | nil =>
    cases groups' with
    | nil => rfl
    | cons _ _ => cases h
  | cons group rest =>
    cases groups' with
    | nil => cases h
    | cons group' rest' =>
      cases h with
      | some h =>
        have hall := sameText_list h
        rw [List.forall₂_map_left_iff,List.forall₂_map_right_iff] at hall
        have heq := hall.imp fun _ _ => sameText_texts
        rwa [List.forall₂_eq_eq_eq] at heq

/-- Exports of classes that are written alike. -/
theorem classTold_of_sameText {v v' : Value} (hv : r.exportClass c = .ok v) (hv' : r'.exportClass c' = .ok v')
    (h : SameText v v') : ∃ d d', r.merge c = .ok d ∧ r'.merge c' = .ok d' ∧ ClassTold r r' d d' := by
  obtain ⟨d,properties,hd,hproperties,rfl⟩ := exportClass_ok hv
  obtain ⟨d',properties',hd',hproperties',rfl⟩ := exportClass_ok hv'
  obtain ⟨_,hmerged⟩ := merge_cases hd
  obtain ⟨_,hmerged'⟩ := merge_cases hd'
  have hsame := sameText_record h (classEntries_nodup d properties) (classEntries_nodup d' properties')
  refine ⟨d,d',hd,hd',?_,?_,?_,?_⟩
  · cases hsame "name" with
    | some hrel => exact sameText_str hrel
  · cases hsame "embedded" with
    | some hrel => exact sameText_bool hrel
  · exact together_of_sameText (hsame "unique_together")
  · rw [hmerged.cls,hmerged'.cls]
    have hlist : List.Forall₂ SameText properties properties' := by
      cases hsame "properties" with
      | some hrel => exact sameText_list hrel
    have htold := forall₂_through (mapM_eq_ok.mp hproperties) (mapM_eq_ok.mp hproperties') hlist
    exact htold.imp fun p p' ⟨v,v',hv,hv',hsame⟩ => propertyTold_of_sameText hv hv' hsame

/-- The canonical text of the export, of which the fingerprint is a digest. -/
def canonicalText (r : Registry) : Except Error String := do
  (← r.toRecord).toJsonText .compact .asText

theorem computeFingerprint_eq_ok {fingerprint : String} : r.computeFingerprint = .ok fingerprint ↔
    ∃ text, r.canonicalText = .ok text ∧ fingerprint = "sha256:" ++ Sha256.hexDigest text := by
  simp only [computeFingerprint,canonicalText,bind_eq_ok,pure_eq_ok,eq_comm (a := fingerprint)]
  constructor
  · rintro ⟨v,hv,text,htext,rfl⟩
    exact ⟨text,⟨v,hv,htext⟩,rfl⟩
  · rintro ⟨text,⟨v,hv,htext⟩,rfl⟩
    exact ⟨v,hv,text,htext,rfl⟩

/-- Whether two classes are exported alike. -/
def ToldAlike (r r' : Registry) (c c' : Class Value) : Prop :=
  ∃ d d', r.merge c = .ok d ∧ r'.merge c' = .ok d' ∧ ClassTold r r' d d'

/-- Registries of one canonical text have classes in the same places that are exported alike. -/
theorem told_of_canonicalText {text : String} (h : r.canonicalText = .ok text) (h' : r'.canonicalText = .ok text) :
    List.Forall₂ (ToldAlike r r') r.sortedClasses r'.sortedClasses := by
  obtain ⟨v,hv,h⟩ := bind_eq_ok.mp h
  obtain ⟨v',hv',h'⟩ := bind_eq_ok.mp h'
  obtain ⟨exports,hexports,hv⟩ := bind_eq_ok.mp hv
  obtain ⟨exports',hexports',hv'⟩ := bind_eq_ok.mp hv'
  cases pure_eq_ok.mp hv
  cases pure_eq_ok.mp hv'
  have hnodup (exports : List Value) : ([("entities", Value.list exports)].map (·.1)).Nodup := List.nodup_singleton _
  have hlist : List.Forall₂ SameText exports exports' := by
    cases sameText_record (sameText_of_toJsonText h h') (hnodup exports) (hnodup exports') "entities" with
    | some hrel => exact sameText_list hrel
  refine (forall₂_through (mapM_eq_ok.mp hexports) (mapM_eq_ok.mp hexports') hlist).imp ?_
  rintro c c' ⟨v,v',hv,hv',hsame⟩
  exact classTold_of_sameText hv hv' hsame

/-- The names of the registered classes, in the order of the export. -/
def entityNames (r : Registry) : List String := r.sortedClasses.map r.nameOf

theorem ToldAlike.nameOf (h : ToldAlike r r' c c') : r.nameOf c = r'.nameOf c' := by
  obtain ⟨d,d',hd,hd',htold⟩ := h
  obtain ⟨_,hmerged⟩ := merge_cases hd
  obtain ⟨_,hmerged'⟩ := merge_cases hd'
  rw [← hmerged.name,← hmerged'.name]
  exact htold.name

theorem find?_sortedClasses (r : Registry) (name : String) :
    r.sortedClasses.find? (fun c => r.nameOf c == name) = r.lookup? name := by
  refine find?_mergeSort ?_ ?_ ?_
  · intro a b c hab hbc
    exact decide_eq_true (String.le_trans (of_decide_eq_true hab) (of_decide_eq_true hbc))
  · intro a b
    rcases String.le_total (r.nameOf a) (r.nameOf b) with hle | hle <;> simp [hle]
  · intro a b ha hb
    rw [beq_iff_eq.mp ha,beq_iff_eq.mp hb]
    exact decide_eq_true (String.le_refl name)

/-- A name is that of classes in one place, or of none in both registries. -/
theorem entity_of_told (h : List.Forall₂ (ToldAlike r r') r.sortedClasses r'.sortedClasses) (name : String) :
    r.entity name = .error (.missing (.entity name)) ∧ r'.entity name = .error (.missing (.entity name)) ∨
      ∃ c c', r.entity name = .ok c ∧ r'.entity name = .ok c' ∧ (c, c') ∈ r.sortedClasses.zip r'.sortedClasses := by
  have hfind := find?_of_forall₂ (p := fun c => r.nameOf c == name) (q := fun c => r'.nameOf c == name) h
    fun c c' htold => by rw [htold.nameOf]
  rw [find?_sortedClasses,find?_sortedClasses] at hfind
  rcases hfind with ⟨hnone,hnone'⟩ | ⟨c,c',hc,hc',hplaced⟩
  · exact .inl ⟨by rw [entity,hnone],by rw [entity,hnone']⟩
  · exact .inr ⟨c,c',by rw [entity,hc],by rw [entity,hc'],hplaced⟩

theorem filed?_isSome {β : Type} {table : List (Class Value × β)} {entry : Class Value × β} (h : entry ∈ table) :
    (filed? table entry.1.name).isSome = true := by
  rw [filed?,Option.isSome_map,List.find?_isSome]
  exact ⟨entry,h,beq_self_eq_true _⟩

theorem isRegistered_of_mem (h : c ∈ r.sortedClasses) : r.isRegistered c = true := by
  rw [sortedClasses,List.mem_mergeSort,classes,List.mem_append,List.mem_filter] at h
  rw [isRegistered,Bool.or_eq_true]
  rcases h with h | ⟨h,_⟩
  · obtain ⟨entry,hentry,rfl⟩ := List.mem_map.mp h
    exact .inl (filed?_isSome hentry)
  · obtain ⟨entry,hentry,rfl⟩ := List.mem_map.mp h
    exact .inr (filed?_isSome hentry)

/-- What is registered is listed, perhaps by another value of the same class. -/
theorem exists_listed (h : r.isRegistered c = true) : ∃ c' ∈ r.classes, c'.name = c.name := by
  have hfiled {β : Type} {table : List (Class Value × β)} (h : (filed? table c.name).isSome = true) :
      ∃ entry ∈ table, entry.1.name = c.name := by
    rw [filed?,Option.isSome_map,List.find?_isSome] at h
    obtain ⟨entry,hentry,hname⟩ := h
    exact ⟨entry,hentry,eq_of_beq hname⟩
  rw [isRegistered,Bool.or_eq_true] at h
  by_cases hmarked : ∃ entry ∈ r.entities, entry.1.name = c.name
  · obtain ⟨entry,hentry,hname⟩ := hmarked
    exact ⟨entry.1,List.mem_append_left _ (List.mem_map_of_mem hentry),hname⟩
  · obtain ⟨entry,hentry,hname⟩ := hfiled (h.resolve_left fun hmarkedSome => hmarked (hfiled hmarkedSome))
    refine ⟨entry.1,List.mem_append_right _ (List.mem_filter.mpr ⟨List.mem_map_of_mem hentry,?_⟩),hname⟩
    simpa [hname] using hmarked

end Registry

end Trischema
