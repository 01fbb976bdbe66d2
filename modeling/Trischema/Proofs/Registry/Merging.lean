import Trischema.Proofs.Lists
import Trischema.Proofs.Outcome
import Trischema.Registry.Merging

/-!
What a merged descriptor is made of. The keys of folded options stay distinct, only the key `id` can hold
options that nobody declared, and each property of a descriptor comes from the options under its key.
-/

namespace Trischema

namespace OptionTable

variable {combine : Options → Options → Options} {table : OptionTable} {key : String} {o : Options}

theorem mem_keys_upsert {k : String} (h : k ∈ (table.upsert combine key o).map (·.1)) :
    k = key ∨ k ∈ table.map (·.1) := by
  induction table with
  | nil => simpa [upsert] using h
  | cons entry rest ih =>
    rw [upsert] at h
    split at h
    · exact .inr h
    · rcases List.mem_cons.mp h with rfl | h
      · exact .inr List.mem_cons_self
      · exact (ih h).imp id (List.mem_cons_of_mem _)

/-- Combining options under a key does not put the key twice. -/
theorem upsert_keys_nodup (combine : Options → Options → Options) (key : String) (o : Options)
    (h : (table.map (·.1)).Nodup) : ((table.upsert combine key o).map (·.1)).Nodup := by
  induction table with
  | nil => simp [upsert]
  | cons entry rest ih =>
    rw [List.map_cons,List.nodup_cons] at h
    rw [upsert]
    split
    · exact List.nodup_cons.mpr h
    · rename_i different
      refine List.nodup_cons.mpr ⟨fun hmem => ?_, ih h.2⟩
      rcases mem_keys_upsert hmem with same | old
      · exact different same
      · exact h.1 old

/-- The keys of options that nobody declared are `id`. -/
def SyntheticAtId (table : OptionTable) : Prop := ∀ entry ∈ table, entry.2.synthetic = true → entry.1 = "id"

theorem upsert_syntheticAtId (h : SyntheticAtId table)
    (hnew : ∀ old, (combine o old).synthetic = true → key = "id" ∨ old.synthetic = true) :
    SyntheticAtId (table.upsert combine key o) := by
  induction table with
  | nil =>
    intro entry hentry hsynthetic
    rw [upsert,List.mem_singleton] at hentry
    subst hentry
    exact (hnew {} hsynthetic).resolve_right (by simp)
  | cons first rest ih =>
    intro entry hentry hsynthetic
    rw [upsert] at hentry
    split at hentry
    · rename_i same
      rcases List.mem_cons.mp hentry with rfl | hentry
      · rcases hnew first.2 hsynthetic with rfl | hold
        · exact same
        · exact h first List.mem_cons_self hold
      · exact h entry (List.mem_cons_of_mem _ hentry) hsynthetic
    · rcases List.mem_cons.mp hentry with rfl | hentry
      · exact h _ List.mem_cons_self hsynthetic
      · exact ih (fun e he => h e (List.mem_cons_of_mem _ he)) entry hentry hsynthetic

end OptionTable

namespace ClassName

theorem domainProperties_synthetic (name : ClassName) : OptionTable.SyntheticAtId name.domainProperties := by
  cases name with
  | defined => simp [OptionTable.SyntheticAtId,domainProperties]
  | builtin b => cases b <;> simp [OptionTable.SyntheticAtId,domainProperties,Builtin.domainProperties]

end ClassName

namespace Registry

variable {r : Registry} {c : Class Value}

/-- What one upsert keeps of a table, one class of a lineage keeps. -/
theorem contribute_keeps (motive : OptionTable → Prop) (name : ClassName) (folded : OptionTable)
    (start : motive folded)
    (injected : ∀ table entry, entry ∈ name.domainProperties → motive table →
      motive (table.upsert .overlay entry.1 entry.2))
    (declared : ∀ table (entry : String × Options), motive table →
      motive (table.upsert .declaredOver entry.1 entry.2)) :
    motive (r.contribute folded name) := by
  unfold contribute
  split
  · exact start
  · refine List.foldlRecOn _ _ ?_ fun table h entry _ => declared table entry h
    exact List.foldlRecOn _ _ start fun table h entry hentry => injected table entry hentry h

theorem folded_keys_nodup (r : Registry) (c : Class Value) : ((r.folded c).map (·.1)).Nodup := by
  have keeps (table : OptionTable) (h : (table.map (·.1)).Nodup) (name : ClassName) :
      ((r.contribute table name).map (·.1)).Nodup :=
    contribute_keeps (fun t => (t.map (·.1)).Nodup) name table h
      (fun _ entry _ => OptionTable.upsert_keys_nodup _ entry.1 entry.2)
      (fun _ entry => OptionTable.upsert_keys_nodup _ entry.1 entry.2)
  refine List.foldlRecOn (motive := fun t : OptionTable => (t.map (·.1)).Nodup) _ _ ?_
    fun t h name _ => keeps t h name
  exact List.nodup_nil

theorem folded_syntheticAtId (r : Registry) (c : Class Value) : OptionTable.SyntheticAtId (r.folded c) := by
  unfold folded
  refine List.foldlRecOn _ _ (by simp [OptionTable.SyntheticAtId]) fun table h name _ => ?_
  refine contribute_keeps OptionTable.SyntheticAtId name table h (fun t entry hentry ht => ?_)
    (fun t entry ht => ?_)
  · refine OptionTable.upsert_syntheticAtId ht fun old hsynthetic => ?_
    rcases Bool.or_eq_true_iff.mp hsynthetic with hnew | hold
    · exact .inl (name.domainProperties_synthetic entry hentry hnew)
    · exact .inr hold
  · -- what a class declares is never synthetic afterwards
    exact OptionTable.upsert_syntheticAtId ht fun old hsynthetic => by simp [Options.declaredOver] at hsynthetic

/-- The folded options of a class after the choice of its identifier. -/
inductive Settled (table : OptionTable) : OptionTable → Prop
  /-- nothing was declared to be the identifier -/
  | undeclared (h : explicitIdentifiers table = []) : Settled table table
  | declared (key : String) (h : explicitIdentifiers table = [key]) : Settled table (dropSynthetic table key)

/-- A descriptor comes from settled options, with an identifier in front where it needs one. -/
structure Merged (r : Registry) (c : Class Value) (table : OptionTable) (d : Descriptor) : Prop where
  settled : Settled (r.folded c) table
  properties : r.properties c (withIdentifier table (r.isEmbedded c)) = .ok d.properties
  together : checkTogether (r.nameOf c) d.keys (r.registration c).together = .ok ()
  cls : d.cls = c
  name : d.name = r.nameOf c
  embedded : d.embedded = r.isEmbedded c
  groups : d.together = (r.registration c).together

theorem merge_cases {d : Descriptor} (h : r.merge c = .ok d) : ∃ table, Merged r c table d := by
  have build {table : OptionTable} (settled : Settled (r.folded c) table)
      (hd : (do
        let properties ← r.properties c (withIdentifier table (r.isEmbedded c))
        checkTogether (r.nameOf c) (properties.map (·.key)) (r.registration c).together
        return (⟨c, r.nameOf c, properties, r.isEmbedded c, (r.registration c).together⟩ : Descriptor)) =
          Except.ok d) : ∃ table, Merged r c table d := by
    obtain ⟨properties,hp,hd⟩ := bind_eq_ok.mp hd
    obtain ⟨_,hc,hd⟩ := bind_eq_ok.mp hd
    cases hd
    exact ⟨table,settled,hp,hc,rfl,rfl,rfl,rfl⟩
  simp only [merge] at h
  split at h
  · rename_i none
    exact build (.undeclared none) h
  · rename_i key one
    exact build (.declared key one) h
  · simp [bind,Except.bind] at h

/-- What a descriptor is made of makes it. -/
theorem merge_of_merged {table : OptionTable} {d : Descriptor} (h : Merged r c table d) : r.merge c = .ok d := by
  obtain ⟨cls,name,properties,embedded,groups⟩ := d
  obtain ⟨hsettled,hproperties,htogether,hcls,hname,hembedded,hgroups⟩ := h
  dsimp only [Descriptor.keys] at hproperties htogether hcls hname hembedded hgroups
  subst hcls hname hembedded hgroups
  cases hsettled with
  | undeclared hnone =>
    simp only [merge,hnone,hproperties,htogether,ok_bind]
    rfl
  | declared key hone =>
    simp only [merge,hone,hproperties,htogether,ok_bind]
    rfl

theorem property_ok {key : String} {o : Options} {p : Property} (h : r.property c key o = .ok p) :
    ∃ k, r.classify c key o = .ok k ∧ p = {
      key
      type := o.type.getD .absent
      unique := o.unique
      optional := o.optional
      isIdentifier := o.identifies
      enum := o.enum
      default := o.default
      relationship := o.relationship
      classification := some k
      synthetic := o.synthetic } := by
  obtain ⟨k,hk,hp⟩ := bind_eq_ok.mp h
  exact ⟨k,hk,(pure_eq_ok.mp hp).symm⟩

/-- Every property comes from the options under its key, in their order. -/
theorem properties_ok {table : OptionTable} {properties : List Property}
    (h : r.properties c table = .ok properties) :
    List.Forall₂ (fun entry p => r.property c entry.1 entry.2 = .ok p) table properties := by
  induction table generalizing properties with
  | nil =>
    cases h
    exact .nil
  | cons entry rest ih =>
    obtain ⟨p,hp,h⟩ := bind_eq_ok.mp h
    obtain ⟨ps,hps,h⟩ := bind_eq_ok.mp h
    cases pure_eq_ok.mp h
    exact .cons hp (ih hps)

/-- What all properties take over from their options, they take over together. -/
theorem properties_map {α : Type} {table : OptionTable} {properties : List Property}
    {f : String × Options → α} {g : Property → α} (h : r.properties c table = .ok properties)
    (same : ∀ key o p, r.property c key o = .ok p → g p = f (key, o)) :
    properties.map g = table.map f :=
  (map_eq_of_forall₂ (properties_ok h) fun _ _ hp => (same _ _ _ hp).symm).symm

theorem properties_keys {table : OptionTable} {properties : List Property}
    (h : r.properties c table = .ok properties) : properties.map (·.key) = table.map (·.1) := by
  refine properties_map h fun key o p hp => ?_
  obtain ⟨_,_,rfl⟩ := property_ok hp
  rfl

namespace Settled

variable {table settled : OptionTable}

theorem sublist (h : Settled table settled) : settled.Sublist table := by
  cases h with
  | undeclared _ => exact .refl _
  | declared _ _ => exact List.filter_sublist

theorem keys_nodup (h : Settled table settled) (hkeys : (table.map (·.1)).Nodup) :
    (settled.map (·.1)).Nodup :=
  (h.sublist.map _).nodup hkeys

end Settled

theorem withIdentifier_keys_nodup {table : OptionTable} (embedded : Bool) (h : (table.map (·.1)).Nodup) :
    ((withIdentifier table embedded).map (·.1)).Nodup := by
  unfold withIdentifier
  split
  · refine List.nodup_cons.mpr ⟨fun hid => ?_,(List.filter_sublist.map _).nodup h⟩
    obtain ⟨entry,hentry,hid⟩ := List.mem_map.mp hid
    simp [hid] at hentry
  · exact h

/-- No two properties of a descriptor have the same key. -/
theorem merge_keys_nodup {d : Descriptor} (h : r.merge c = .ok d) : d.keys.Nodup := by
  obtain ⟨table,merged⟩ := merge_cases h
  rw [Descriptor.keys,properties_keys merged.properties]
  exact withIdentifier_keys_nodup _ (merged.settled.keys_nodup (r.folded_keys_nodup c))

end Registry

end Trischema
