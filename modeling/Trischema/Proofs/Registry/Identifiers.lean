import Trischema.Proofs.Registry.Merging
import Trischema.Repository.Basic

/-!
How many properties of a merged descriptor identify its instances: at most one, and exactly one in a class
that is stored on its own unless the key `id` is taken there by a property that does not identify.
-/

namespace Trischema

namespace OptionTable

/-- The options that make their key an identifier. -/
def identifying (table : OptionTable) : OptionTable := table.filter fun entry => entry.2.identifies

theorem length_le_one_of_keys {table : OptionTable} {key : String} (h : (table.map (·.1)).Nodup)
    (same : ∀ entry ∈ table, entry.1 = key) : table.length ≤ 1 := by
  have hkeys : table.map (·.1) = List.replicate table.length key := by
    rw [List.eq_replicate_iff]
    exact ⟨List.length_map _,fun k hk => by
      obtain ⟨entry,hentry,rfl⟩ := List.mem_map.mp hk
      exact same entry hentry⟩
  rw [hkeys] at h
  exact List.nodup_replicate.mp h

end OptionTable

namespace Registry

variable {r : Registry} {c : Class Value}

/-- Whether a class has a property `id` and none that identifies. -/
def idIsTaken (r : Registry) (c : Class Value) : Bool :=
  (r.folded c).any (·.1 == "id") && !(r.folded c).any fun entry => entry.2.identifies

theorem mem_explicitIdentifiers {table : OptionTable} {key : String} :
    key ∈ explicitIdentifiers table ↔ ∃ o, (key, o) ∈ table ∧ o.identifies = true ∧ o.synthetic = false := by
  simp [explicitIdentifiers]

namespace Settled

variable {table settled : OptionTable}

/-- An identifier that was declared stays, and so does the one that was not when it is the only one. -/
theorem any_identifies (h : Settled table settled) :
    (settled.any fun entry => entry.2.identifies) = table.any fun entry => entry.2.identifies := by
  cases h with
  | undeclared _ => rfl
  | declared key hkey =>
    obtain ⟨o,hmem,hid,hdeclared⟩ := mem_explicitIdentifiers.mp (hkey ▸ List.mem_singleton_self key)
    have hkept : (key, o) ∈ dropSynthetic table key := by simp [dropSynthetic,hmem]
    rw [List.any_eq_true.mpr ⟨_,hkept,hid⟩,List.any_eq_true.mpr ⟨_,hmem,hid⟩]

/-- Where nothing identifies, nothing was dropped. -/
theorem eq_of_unidentified (h : Settled table settled)
    (hid : (settled.any fun entry => entry.2.identifies) = false) : settled = table := by
  rw [h.any_identifies] at hid
  cases h with
  | undeclared _ => rfl
  | declared key hkey =>
    obtain ⟨o,hmem,ho,_⟩ := mem_explicitIdentifiers.mp (hkey ▸ List.mem_singleton_self key)
    exact absurd ho (List.any_eq_false.mp hid _ hmem)

/-- The options that identify after the choice are all under one key. -/
theorem identifying_key (h : Settled table settled) (hsynthetic : table.SyntheticAtId) :
    ∃ key, ∀ entry ∈ settled.identifying, entry.1 = key := by
  cases h with
  | undeclared none =>
    refine ⟨"id",fun ⟨key,o⟩ hentry => ?_⟩
    obtain ⟨hmem,hid⟩ := List.mem_filter.mp hentry
    refine hsynthetic _ hmem (by_contra fun hdeclared => ?_)
    have hexplicit : key ∈ explicitIdentifiers table :=
      mem_explicitIdentifiers.mpr ⟨o,hmem,hid,Bool.eq_false_iff.mpr hdeclared⟩
    simp [none] at hexplicit
  | declared key one =>
    refine ⟨key,fun ⟨k,o⟩ hentry => ?_⟩
    obtain ⟨hkept,hid⟩ := List.mem_filter.mp hentry
    obtain ⟨hmem,hkept⟩ := List.mem_filter.mp hkept
    by_cases hdeclared : o.synthetic = true
    · simpa [hdeclared,show o.identifies = true from hid] using hkept
    · have hexplicit : k ∈ explicitIdentifiers table :=
        mem_explicitIdentifiers.mpr ⟨o,hmem,hid,Bool.eq_false_iff.mpr hdeclared⟩
      rw [one] at hexplicit
      exact List.mem_singleton.mp hexplicit

theorem identifying_length (h : Settled table settled) (hkeys : (table.map (·.1)).Nodup)
    (hsynthetic : table.SyntheticAtId) : settled.identifying.length ≤ 1 := by
  obtain ⟨key,hkey⟩ := h.identifying_key hsynthetic
  exact OptionTable.length_le_one_of_keys ((List.filter_sublist.map _).nodup (h.keys_nodup hkeys)) hkey

end Settled

theorem identifying_eq_nil {table : OptionTable} :
    table.identifying = [] ↔ (table.any fun entry => entry.2.identifies) = false := by
  rw [OptionTable.identifying,List.filter_eq_nil_iff,List.any_eq_false]

/-- A class that is stored on its own and has no identifier gets one exactly when `id` is free. -/
theorem withIdentifier_identifying (table : OptionTable) (embedded : Bool) :
    (withIdentifier table embedded).identifying =
      if !embedded && !(table.any fun entry => entry.2.identifies) && !table.any (·.1 == "id")
      then [("id", synthesized)] else table.identifying := by
  by_cases hid : (table.any fun entry => entry.2.identifies) = true
  · simp [withIdentifier,hid]
  · rw [Bool.not_eq_true] at hid
    have hrest : OptionTable.identifying (table.filter (·.1 != "id")) = [] := by
      rw [identifying_eq_nil,List.any_eq_false] at *
      exact fun entry hentry => hid entry (List.mem_filter.mp hentry).1
    cases embedded with
    | true => simp [withIdentifier]
    | false =>
      rw [withIdentifier,hid,identifying_eq_nil.mpr hid]
      cases hlookup : table.lookup "id" with
      | none =>
        have hfree : table.any (·.1 == "id") = false := by
          rw [List.lookup_eq_none_iff] at hlookup
          rw [List.any_eq_false]
          intro entry hentry
          have hne : "id" ≠ entry.1 := bne_iff_ne.mp (hlookup entry hentry)
          simpa using hne.symm
        rw [hfree]
        change OptionTable.identifying (("id", synthesized) :: _) = [("id", synthesized)]
        rw [OptionTable.identifying,List.filter_cons_of_pos rfl]
        exact congrArg _ hrest
      | some o =>
        have hmem : ("id", o) ∈ table := mem_of_lookup hlookup
        have htaken : table.any (·.1 == "id") = true := List.any_eq_true.mpr ⟨_,hmem,rfl⟩
        have ho : o.identifies = false := by
          rw [List.any_eq_false] at hid
          exact Bool.eq_false_iff.mpr (hid _ hmem)
        rw [htaken]
        change OptionTable.identifying (("id", o) :: _) = []
        rw [OptionTable.identifying,List.filter_cons_of_neg (by simp [ho])]
        exact hrest

end Registry

namespace Descriptor

/-- The properties that identify the instances of a class. -/
def identifiers (d : Descriptor) : List Property := d.properties.filter (·.isIdentifier)

theorem identifier?_eq_head? (d : Descriptor) : d.identifier? = d.identifiers.head? := by
  rw [identifier?,identifiers,List.head?_filter]

end Descriptor

namespace Registry

variable {r : Registry} {c : Class Value}

theorem identifiers_length {table : OptionTable} {d : Descriptor}
    (h : r.properties c table = .ok d.properties) : d.identifiers.length = table.identifying.length := by
  have hflags : d.properties.map (·.isIdentifier) = table.map fun entry => entry.2.identifies := by
    refine properties_map h fun key o p hp => ?_
    obtain ⟨_,_,rfl⟩ := property_ok hp
    rfl
  have hcount := congrArg (List.countP id) hflags
  rw [List.countP_map,List.countP_map,List.countP_eq_length_filter,List.countP_eq_length_filter] at hcount
  exact hcount

/-- How many properties of a descriptor identify, read off the folded options. -/
theorem merge_identifiers_length {d : Descriptor} (h : r.merge c = .ok d) :
    d.identifiers.length ≤ 1 ∧
      (d.embedded = false → d.identifiers.length = if r.idIsTaken c then 0 else 1) := by
  obtain ⟨table,merged⟩ := merge_cases h
  have hany := merged.settled.any_identifies
  have hle := merged.settled.identifying_length (r.folded_keys_nodup c) (r.folded_syntheticAtId c)
  rw [identifiers_length merged.properties,withIdentifier_identifying,merged.embedded]
  by_cases hid : (table.any fun entry => entry.2.identifies) = true
  · have hpos : 0 < table.identifying.length := by
      rw [List.length_pos_iff,ne_eq,identifying_eq_nil,hid]
      exact Bool.noConfusion
    have hfree : r.idIsTaken c = false := by simp [idIsTaken,← hany,hid]
    rw [hid,hfree]
    simp only [Bool.not_true,Bool.and_false,Bool.false_and,Bool.false_eq_true,if_false]
    exact ⟨hle,fun _ => by omega⟩
  · rw [Bool.not_eq_true] at hid
    have htable := merged.settled.eq_of_unidentified hid
    have htaken : r.idIsTaken c = table.any (·.1 == "id") := by simp [idIsTaken,← htable,hid]
    rw [hid,htaken,identifying_eq_nil.mpr hid]
    cases r.isEmbedded c <;> cases table.any (·.1 == "id") <;> simp

theorem descriptor_registered {d : Descriptor} (h : r.descriptor (.cls c) = .ok d) : r.merge c = .ok d := by
  rw [descriptor] at h
  split at h
  · exact h
  · cases h

/-- Where nothing identifies and `id` is free, the first property is an identifier that nobody declared. -/
theorem merge_synthesized {d : Descriptor} (h : r.merge c = .ok d) (hstored : d.embedded = false)
    (hnone : (r.folded c).identifying = []) (hfree : r.idIsTaken c = false) :
    ∃ p rest, d.properties = p :: rest ∧ p.key = "id" ∧ p.isIdentifier = true ∧ p.synthetic = true ∧
      p.type = .builtin .identifier ∧ p.default = some (.callable .generateId) := by
  obtain ⟨table,merged⟩ := merge_cases h
  have hid := identifying_eq_nil.mp hnone
  rw [← merged.settled.any_identifies] at hid
  have htable := merged.settled.eq_of_unidentified hid
  have hlookup : table.lookup "id" = none := by
    rw [List.lookup_eq_none_iff]
    simp only [idIsTaken,← htable,hid,Bool.not_false,Bool.and_true,List.any_eq_false] at hfree
    intro entry hentry
    exact bne_iff_ne.mpr fun same => hfree entry hentry (beq_iff_eq.mpr same.symm)
  have hfront : withIdentifier table (r.isEmbedded c) =
      ("id", synthesized) :: table.filter (·.1 != "id") := by
    simp [withIdentifier,← merged.embedded,hstored,hid,hlookup]
  have hproperties := merged.properties
  rw [hfront] at hproperties
  obtain ⟨p,hp,hproperties⟩ := bind_eq_ok.mp hproperties
  obtain ⟨rest,_,hproperties⟩ := bind_eq_ok.mp hproperties
  obtain ⟨_,_,rfl⟩ := property_ok hp
  exact ⟨_,rest,(pure_eq_ok.mp hproperties).symm,rfl,rfl,rfl,rfl,rfl⟩

/-- Every descriptor has at most one identifier. A class that is stored on its own has exactly one and can
be bound to a store, unless its key `id` is taken; without a declared identifier it is the synthesized one. -/
theorem descriptor_identifiers {d : Descriptor} (h : r.descriptor (.cls c) = .ok d) :
    d.identifiers.length ≤ 1 ∧
      (d.embedded = false → r.idIsTaken c = false →
        ∃ p, d.identifiers = [p] ∧
          (∀ publisher, Repository.ofDescriptor d publisher = .ok { descriptor := d, identifier := p, publisher }) ∧
          ((r.folded c).identifying = [] → d.properties.head? = some p ∧ p.key = "id" ∧ p.synthetic = true ∧
            p.type = .builtin .identifier ∧ p.default = some (.callable .generateId))) ∧
      (d.embedded = false → r.idIsTaken c = true →
        d.identifiers = [] ∧ ∀ publisher, Repository.ofDescriptor d publisher =
          .error (.definition (.noIdentifier d.name) ⟨some d.name, none⟩)) := by
  have hmerge := descriptor_registered h
  obtain ⟨hle,hstored⟩ := merge_identifiers_length hmerge
  refine ⟨hle,fun hout hfree => ?_,fun hout htaken => ?_⟩
  · rw [hfree] at hstored
    obtain ⟨p,hp⟩ := List.length_eq_one_iff.mp (hstored hout)
    refine ⟨p,hp,fun publisher => ?_,fun hnone => ?_⟩
    · simp only [Repository.ofDescriptor,Descriptor.identifier?_eq_head?,hp,List.head?_cons]
    · obtain ⟨q,rest,hq,hkey,hidentifies,hsynthetic,htype,hdefault⟩ :=
        merge_synthesized hmerge hout hnone hfree
      rw [Descriptor.identifiers,hq,List.filter_cons_of_pos hidentifies] at hp
      obtain ⟨rfl,_⟩ := List.cons.inj hp
      exact ⟨congrArg List.head? hq,hkey,hsynthetic,htype,hdefault⟩
  · rw [htaken] at hstored
    have hnil := List.length_eq_zero_iff.mp (hstored hout)
    refine ⟨hnil,fun publisher => ?_⟩
    simp only [Repository.ofDescriptor,Descriptor.identifier?_eq_head?,hnil,List.head?_nil]

/-- A root class with one property of type text. -/
def part : Class Value := ⟨.defined "Part" 0 [.builtin .object], none⟩

/-- What declaring one text property of that class leaves. -/
def partWith (key : String) : Except Error Registry :=
  ({} : Registry).registerProperty (.cls part) (.str key) [("type", .type (.builtin .text))]

theorem descriptor_identifiers_part : ∃ r d p, partWith "name" = .ok r ∧ r.descriptor (.cls part) = .ok d ∧
    d.embedded = false ∧ r.idIsTaken part = false ∧ d.identifiers = [p] ∧ d.properties.head? = some p ∧
    p.key = "id" := by
  let r : Registry := { declarations := [(part, [("name", { type := some (.builtin .text) })])] }
  have hr : partWith "name" = .ok r := by with_unfolding_all rfl
  have hstored : (r.descriptor (.cls part)).map (·.embedded) = .ok false := by with_unfolding_all rfl
  have hfree : r.idIsTaken part = false := by decide
  have hnone : (r.folded part).identifying = [] := by rfl
  cases hd : r.descriptor (.cls part) with
  | error e => simp [hd,Except.map] at hstored
  | ok d =>
    have hout : d.embedded = false := by simpa [hd,Except.map] using hstored
    obtain ⟨p,hp,_,hsynthesized⟩ := (descriptor_identifiers hd).2.1 hout hfree
    obtain ⟨hhead,hkey,_⟩ := hsynthesized hnone
    exact ⟨r,d,p,hr,hd,hout,hfree,hp,hhead,hkey⟩

/-- A text property `id` leaves its class without an identifier, although the class is not embedded. -/
theorem descriptor_identifiers_taken :
    (do
      let r ← partWith "id"
      let d ← r.descriptor (.cls part)
      return (d.embedded, d.identifiers.length)) = Except.ok (false, 0) ∧
    (do
      let r ← partWith "id"
      let d ← r.descriptor (.cls part)
      Repository.ofDescriptor d none) =
        .error (.definition (.noIdentifier "Part") ⟨some "Part", none⟩) := by
  constructor <;> with_unfolding_all rfl

end Registry

end Trischema
