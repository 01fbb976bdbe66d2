import Trischema.Proofs.Registry.Identifiers
import Trischema.Proofs.Table.Rows
import Trischema.Repository.Tables

/-!
The columns that a class is stored in. Every property that is no relationship has the column that it is
compiled to, every owning relation to one target has its join column, and no two names of a created table
are the same.
-/

namespace Trischema

namespace Relational

variable {r : Registry} {s : Settings} {d : Descriptor} {t : Relational}

/-- The name of the column of a property that is no relationship. -/
def columnName (s : Settings) (p : Property) : String :=
  Renaming.ofIdentifier s.documentIdField s.relationalIdField p

/-- Only an identifier is stored under another name than its key. -/
theorem columnName_eq (s : Settings) (p : Property) : columnName s p = p.key ∨ p.isIdentifier = true := by
  rw [columnName,Renaming.ofIdentifier]
  split
  · rename_i h
    exact .inr (Bool.and_eq_true_iff.mp h).1
  · exact .inl rfl

theorem columnOf_ok {name : String} {p : Property} {c : Column} (h : columnOf name p = .ok c) :
    c.name = name ∧ c.nullable = p.optional ∧ c.unique = p.isUnique ∧ c.primary = p.isIdentifier ∧
      c.enum = p.classification.bind Classification.values? := by
  simp only [columnOf] at h
  split at h
  case h_5 => cases h
  all_goals
    cases pure_eq_ok.mp h
    exact ⟨rfl,rfl,rfl,rfl,rfl⟩

/-- What a compiled table is made of. -/
structure Compiled (s : Settings) (d : Descriptor) (t : Relational) : Prop where
  name : t.name = d.name
  columns : List.Forall₂ (fun p c => columnOf (columnName s p) p = .ok c)
    (d.properties.filter (!·.isRelationship)) t.columns
  together : t.together = Renaming.groups ((d.properties.filter (!·.isRelationship)).map
    fun p => (p.key, columnName s p)) d.together

theorem ofDescriptor_compiled (h : (ofDescriptor r s d).result = .ok t) : Compiled s d t := by
  obtain ⟨relations,_,h⟩ := bind_eq_ok.mp h
  obtain ⟨columns,hcolumns,h⟩ := bind_eq_ok.mp h
  cases pure_eq_ok.mp h
  refine ⟨rfl,?_,?_⟩
  · have hkept := mapM_eq_ok.mp hcolumns
    rwa [kept,List.forall₂_map_left_iff] at hkept
  · simp only [kept,List.map_map]
    rfl

namespace Compiled

/-- Every column comes from a property that is no relationship. -/
theorem column_mem (h : Compiled s d t) {c : Column} (hc : c ∈ t.columns) :
    ∃ p ∈ d.properties, p.isRelationship = false ∧ columnOf (columnName s p) p = .ok c := by
  obtain ⟨p,hp,hcolumn⟩ := exists_left_of_forall₂ h.columns hc
  obtain ⟨hp,hscalar⟩ := List.mem_filter.mp hp
  exact ⟨p,hp,by simpa using hscalar,hcolumn⟩

end Compiled

end Relational

namespace Descriptor

variable {d : Descriptor} {p q : Property}

theorem eq_of_key (h : d.keys.Nodup) (hp : p ∈ d.properties) (hq : q ∈ d.properties) (hkey : p.key = q.key) :
    p = q :=
  List.inj_on_of_nodup_map h hp hq hkey

theorem eq_of_identifier (h : d.identifiers.length ≤ 1) (hp : p ∈ d.properties) (hq : q ∈ d.properties)
    (hpid : p.isIdentifier = true) (hqid : q.isIdentifier = true) : p = q := by
  have hp : p ∈ d.identifiers := List.mem_filter.mpr ⟨hp,hpid⟩
  have hq : q ∈ d.identifiers := List.mem_filter.mpr ⟨hq,hqid⟩
  match hd : d.identifiers with
  | [] => simp [hd] at hp
  | [i] =>
    rw [hd,List.mem_singleton] at hp hq
    rw [hp,hq]
  | i :: j :: rest => simp [hd] at h

end Descriptor

/-- A record whose keys differ has its values under them. -/
theorem Record.map_field {record : Record} (h : (record.map (·.1)).Nodup) :
    record.map (fun entry => (entry.1, record.field entry.1)) = record := by
  refine (List.map_congr_left fun entry hentry => ?_).trans (List.map_id _)
  rw [Record.field,lookup_of_nodup h hentry]
  rfl

namespace TableBinding

open Relational

variable {s : Settings} {d : Descriptor} {t : Relational} {b : TableBinding} {p : Property} {c : Column}

/-- The column that is looked up for a property has the name that the property is stored under. -/
theorem columnFor_name (h : Compiled s d t) (hkeys : d.keys.Nodup) (hids : d.identifiers.length ≤ 1)
    (hp : p ∈ d.properties) (hc : columnFor t p = .ok c) : c ∈ t.columns ∧ c.name = columnName s p := by
  unfold columnFor at hc
  split at hc
  · rename_i hfound
    cases hc
    have hname : c.name = p.key := by simpa using List.find?_some hfound
    have hmem := List.mem_of_find?_eq_some hfound
    obtain ⟨q,hq,_,hcolumn⟩ := h.column_mem hmem
    refine ⟨hmem,?_⟩
    have hqname := (columnOf_ok hcolumn).1
    by_cases hsame : q = p
    · rw [← hsame,hqname]
    · rcases columnName_eq s q with hqkey | hqid
      · exact absurd (Descriptor.eq_of_key hkeys hq hp (by rw [← hqkey,← hqname,hname])) hsame
      · rcases columnName_eq s p with hpkey | hpid
        · rw [hname,hpkey]
        · exact absurd (Descriptor.eq_of_identifier hids hq hp hqid hpid) hsame
  · rename_i _ hid hprimary
    cases hc
    have hmem := List.mem_of_find?_eq_some hprimary
    obtain ⟨q,hq,_,hcolumn⟩ := h.column_mem hmem
    obtain ⟨hqname,_,_,hqprimary,_⟩ := columnOf_ok hcolumn
    have hqid : q.isIdentifier = true := by
      rw [← hqprimary]
      simpa using List.find?_some hprimary
    refine ⟨hmem,?_⟩
    rw [hqname,Descriptor.eq_of_identifier hids hq hp hqid hid]
  · cases hc

/-- Where a property is kept: in the column that it is compiled to, or in its join column. -/
def Keeps (s : Settings) (t : Relational) (p : Property) (entry : String × Column) : Prop :=
  entry.1 = p.key ∧
    if p.isRelationship then joinColumn? t p.key = some entry.2
    else columnOf (columnName s p) p = .ok entry.2

/-- The properties that are kept in some column. -/
def storedProperties (t : Relational) (ps : List Property) : List Property :=
  ps.filter fun p => !p.isRelationship || (joinColumn? t p.key).isSome

theorem columnsFor_ok {ps : List Property} {entries : List (String × Column)}
    (h : columnsFor t ps = .ok entries) :
    List.Forall₂ (fun p entry => entry.1 = p.key ∧
      if p.isRelationship then joinColumn? t p.key = some entry.2 else columnFor t p = .ok entry.2)
      (storedProperties t ps) entries := by
  induction ps generalizing entries with
  | nil =>
    cases h
    exact .nil
  | cons p rest ih =>
    rw [columnsFor] at h
    split at h
    · rename_i hrelationship
      obtain ⟨others,hothers,h⟩ := bind_eq_ok.mp h
      cases pure_eq_ok.mp h
      cases hjoin : joinColumn? t p.key with
      | none =>
        rw [storedProperties,List.filter_cons_of_neg (by simp [hrelationship,hjoin])]
        exact ih hothers
      | some c =>
        rw [storedProperties,List.filter_cons_of_pos (by simp [hjoin])]
        exact .cons ⟨rfl,by rw [if_pos hrelationship,hjoin]⟩ (ih hothers)
    · rename_i hscalar
      obtain ⟨c,hc,h⟩ := bind_eq_ok.mp h
      obtain ⟨others,hothers,h⟩ := bind_eq_ok.mp h
      cases pure_eq_ok.mp h
      rw [storedProperties,List.filter_cons_of_pos (by simp [hscalar])]
      exact .cons ⟨rfl,by rwa [if_neg hscalar]⟩ (ih hothers)

theorem mem_storedProperties {ps : List Property} :
    p ∈ storedProperties t ps ↔
      p ∈ ps ∧ (p.isRelationship = true → (joinColumn? t p.key).isSome = true) := by
  rw [storedProperties,List.mem_filter,Bool.or_eq_true,Bool.not_eq_true',← Bool.not_eq_true]
  exact and_congr_right fun _ => (Decidable.imp_iff_not_or).symm

/-- A table binding whose columns can be told apart keeps every property where it is compiled to. -/
theorem ofSchema_keeps (h : Compiled s d t) (hkeys : d.keys.Nodup) (hids : d.identifiers.length ≤ 1)
    (hb : ofSchema d t = .ok b) (hnames : (b.columns.map (·.2.name)).Nodup) :
    b.schema = t ∧ List.Forall₂ (Keeps s t) (storedProperties t d.properties) b.columns := by
  obtain ⟨entries,hentries,hb⟩ := bind_eq_ok.mp hb
  cases pure_eq_ok.mp hb
  have hall := (List.forall₂_and_left _ _).mpr
    ⟨fun p hp => (mem_storedProperties.mp hp).1,columnsFor_ok hentries⟩
  have hfound {p : Property} {entry : String × Column} (hscalar : p.isRelationship = false)
      (hentry : if p.isRelationship then joinColumn? t p.key = some entry.2 else columnFor t p = .ok entry.2) :
      columnFor t p = .ok entry.2 := by simpa [hscalar] using hentry
  -- the names of the columns are distinct, so a column is found only for the property that it comes from
  have hapart : (storedProperties t d.properties).Pairwise fun p q =>
      p.isRelationship = false → q.isRelationship = false → columnName s p ≠ columnName s q := by
    refine pairwise_of_forall₂ hall (List.pairwise_map.mp hnames) ?_
    intro p entry q entry' ⟨hp,_,hentry⟩ ⟨hq,_,hentry'⟩ hne hpscalar hqscalar
    rw [← (columnFor_name h hkeys hids hp (hfound hpscalar hentry)).2,
      ← (columnFor_name h hkeys hids hq (hfound hqscalar hentry')).2]
    exact hne
  refine ⟨rfl,hall.imp ?_⟩
  intro p entry ⟨hp,hkey,hentry⟩
  refine ⟨hkey,?_⟩
  cases hscalar : p.isRelationship with
  | true => simpa [hscalar] using hentry
  | false =>
    obtain ⟨hmem,hname⟩ := columnFor_name h hkeys hids hp (hfound hscalar hentry)
    obtain ⟨q,hq,hqscalar,hcolumn⟩ := h.column_mem hmem
    have hsame : columnName s q = columnName s p := by rw [← hname,(columnOf_ok hcolumn).1]
    have hqp : q = p := by
      by_contra hne
      have hsymm : Std.Symm fun p q : Property =>
          p.isRelationship = false → q.isRelationship = false → columnName s p ≠ columnName s q :=
        ⟨fun _ _ hab ha hb => (hab hb ha).symm⟩
      refine hapart.forall ?_ ?_ hne hqscalar hscalar hsame
      · exact mem_storedProperties.mpr ⟨hq,by simp [hqscalar]⟩
      · exact mem_storedProperties.mpr ⟨hp,by simp [hscalar]⟩
    rw [← hqp]
    simpa using hcolumn

end TableBinding

end Trischema
