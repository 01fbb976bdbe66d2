import Trischema.Proofs.Compiling.Naming
import Trischema.Proofs.Registry.Inheritance
import Trischema.Proofs.Registry.Writing

/-!
Join columns and join tables, from their declaration to the relation of a table. A declaration is checked against the
owner and the cardinality of its relationship, and the relation takes from it what its cardinality asks for. The two go
by cases of their own, and a single column between many and many passes the one and is not used by the other.
-/

namespace Trischema

namespace Relationship

variable {given : Given} {rel : Relationship Value}

/-- What options say about a join, and what their check leaves of it: it is there on the owning side alone, a table only
between many and many, and no more columns than the cardinality allows. -/
structure Declared (given : Given) (rel : Relationship Value) : Prop where
  cardinality : cardinalityOf given = .ok rel.cardinality
  owner : rel.owner = flagOf given "owner"
  columns : ((given.lookup "join_columns").getD .null).toOptionalTexts .joinColumns = .ok rel.joinColumns
  table : rel.joinTable = (given.lookup "join_table").getD .null
  owned : rel.joinColumns ≠ [] ∨ rel.joinTable.truthy = true → rel.owner = true
  shaped : rel.joinTable.truthy = true → rel.cardinality = some (.known .manyToMany)
  allowed : rel.joinColumns ≠ [] → (joinAllowance rel.cardinality).2 = true
  few : rel.joinColumns.length ≤ (joinAllowance rel.cardinality).1

/-- Whether columns are declared for a join that takes none of them: a single one between many and many, where the join
table has two, or those of a cardinality that is none of the known ones. -/
def LosesColumns (rel : Relationship Value) : Prop :=
  match rel.cardinality with
  | some (.known .manyToMany) => rel.joinColumns.length = 1
  | some (.other _) => rel.joinColumns ≠ []
  | _ => False

theorem isManyToMany_iff {cardinality : Option (Choice Cardinality Value)} :
    isManyToMany cardinality = true ↔ cardinality = some (.known .manyToMany) := by
  unfold isManyToMany
  split <;> simp_all

theorem ofFault_eq_ok {α : Type} {x : Except DefinitionFault α} {a : α} : Building.ofFault x = .ok a ↔ x = .ok a := by
  cases x <;> simp [Building.ofFault]

/-- What passes the check of a join configuration. -/
theorem checkJoin_ok {cardinality : Option (Choice Cardinality Value)} {owner : Bool} {columns : List String}
    {table : Value} (h : checkJoin cardinality owner columns table = .ok ()) :
    (columns ≠ [] ∨ table.truthy = true → owner = true) ∧
      (table.truthy = true → cardinality = some (.known .manyToMany)) ∧
      (columns ≠ [] → (joinAllowance cardinality).2 = true ∧ columns.length ≤ (joinAllowance cardinality).1) := by
  simp only [checkJoin,bind,Except.bind,Building.fault] at h
  split at h
  · cases h
  rename_i howned
  split at h
  · cases h
  rename_i hshaped
  refine ⟨fun hgiven => ?_,fun htable => ?_,fun hcolumns => ?_⟩
  · by_contra howner
    exact howned (by simpa [howner,or_comm] using hgiven)
  · rw [← isManyToMany_iff]
    by_contra hkind
    exact hshaped (by simp [htable,hkind])
  · rw [if_pos (by simpa using hcolumns)] at h
    split at h
    · split at h <;> cases h
    · rename_i hfits
      simpa using hfits

theorem build_declared (h : build given = .ok rel) : rel.Declared given := by
  rw [build] at h
  split at h
  · obtain ⟨direction,_,h⟩ := bind_eq_ok.mp h
    obtain ⟨cardinality,hcardinality,h⟩ := bind_eq_ok.mp h
    obtain ⟨columns,hcolumns,h⟩ := bind_eq_ok.mp h
    obtain ⟨_,hchecked,h⟩ := bind_eq_ok.mp h
    obtain ⟨howned,hshaped,hcolumn⟩ := checkJoin_ok hchecked
    have hfew : columns.length ≤ (joinAllowance cardinality).1 := by
      by_cases hnone : columns = []
      · rw [hnone]
        exact Nat.zero_le _
      · exact (hcolumn hnone).2
    -- the operations that cascade do not matter for the join
    dsimp only at h
    split at h
    all_goals
      obtain ⟨cascade,_,h⟩ := bind_eq_ok.mp h
      obtain ⟨properties,_,h⟩ := bind_eq_ok.mp h
      obtain ⟨target,_,h⟩ := bind_eq_ok.mp h
      cases pure_eq_ok.mp h
      exact ⟨hcardinality,rfl,ofFault_eq_ok.mp hcolumns,rfl,howned,hshaped,fun hsome => (hcolumn hsome).1,hfew⟩
  · cases h

theorem ofEntries_build {cls key : String} {es : List (Value × Value)} (h : ofEntries cls key es = .ok rel) :
    build (.ofEntries es) = .ok rel := by
  obtain ⟨_,_,h⟩ := bind_eq_ok.mp h
  split at h
  · rename_i built hbuilt
    cases pure_eq_ok.mp h
    exact hbuilt
  · cases h
  · cases h

end Relationship

namespace JoinColumn

def names : JoinColumn → List String
  | byConvention => []
  | named name => [name]

end JoinColumn

namespace JoinTable

def columnNames : JoinTable → List String
  | byConvention | custom _ none => []
  | custom _ (some (near, far)) => [near, far]

def name? : JoinTable → Option Value
  | byConvention => none
  | custom name _ => name

/-- A join table has the columns and the name that were said, also when it goes by convention. -/
theorem said (name : Option Value) (columns : Option (String × String)) :
    let table := if name.isSome || columns.isSome then custom name columns else byConvention
    table.columnNames = columns.elim [] (fun (near, far) => [near, far]) ∧ table.name? = name := by
  cases name <;> cases columns <;> exact ⟨rfl,rfl⟩

end JoinTable

namespace Relation

/-- The columns that a relation names for its join. -/
def joinNames (relation : Relation) : List String :=
  relation.joinColumn.elim [] JoinColumn.names ++ relation.joinTable.elim [] JoinTable.columnNames

/-- What a relation has of the join that a relationship declares. -/
structure Joins (relation : Relation) (rel : Relationship Value) : Prop where
  column : relation.joinColumn.isSome = true ↔
    rel.owner = true ∧ (rel.cardinality = some (.known .oneToOne) ∨ rel.cardinality = some (.known .manyToOne))
  table : relation.joinTable.isSome = true ↔ rel.owner = true ∧ rel.cardinality = some (.known .manyToMany)
  apart : relation.joinColumn = none ∨ relation.joinTable = none
  named : ¬rel.LosesColumns → relation.joinNames = rel.joinColumns
  lost : rel.LosesColumns → relation.joinNames = []
  tableName : relation.joinTable.bind JoinTable.name? = if rel.joinTable.truthy then some rel.joinTable else none

/-- A relation without a join, where none was declared or its columns are lost. -/
theorem joins_of_none {relation : Relation} {rel : Relationship Value} (hcolumn : relation.joinColumn = none)
    (htable : relation.joinTable = none) (hname : rel.joinTable.truthy = false)
    (hnames : ¬rel.LosesColumns → rel.joinColumns = [])
    (hshape : rel.owner = true → rel.cardinality ≠ some (.known .oneToOne) ∧
      rel.cardinality ≠ some (.known .manyToOne) ∧ rel.cardinality ≠ some (.known .manyToMany)) :
    relation.Joins rel := by
  have hjoin : relation.joinNames = [] := by rw [joinNames,hcolumn,htable]; rfl
  refine ⟨?_,?_,.inl hcolumn,fun hkept => hjoin.trans (hnames hkept).symm,fun _ => hjoin,?_⟩
  · rw [hcolumn]
    exact iff_of_false Bool.false_ne_true fun hone => hone.2.elim (hshape hone.1).1 (hshape hone.1).2.1
  · rw [htable]
    exact iff_of_false Bool.false_ne_true fun hmany => (hshape hmany.1).2.2 hmany.2
  · rw [htable,hname]
    rfl

/-- A relation to one has the declared column, or goes by convention. -/
theorem joins_to_one {relation : Relation} {rel : Relationship Value} (hcolumn : relation.joinColumn = Relational.joinColumnOf rel)
    (htable : relation.joinTable = Relational.joinTableOf rel) (howner : rel.owner = true)
    (hkind : rel.cardinality = some (.known .oneToOne) ∨ rel.cardinality = some (.known .manyToOne))
    (hfew : rel.joinColumns.length ≤ 1) (hname : rel.joinTable.truthy = false) : relation.Joins rel := by
  obtain ⟨j,hj,hnames⟩ : ∃ j, relation.joinColumn = some j ∧ j.names = rel.joinColumns := by
    rw [hcolumn,Relational.joinColumnOf,howner]
    rcases hcolumns : rel.joinColumns with _ | ⟨name,_ | ⟨other,rest⟩⟩
    · rcases hkind with h | h <;> (rw [h]; exact ⟨_,rfl,rfl⟩)
    · rcases hkind with h | h <;> (rw [h]; exact ⟨_,rfl,rfl⟩)
    · rw [hcolumns] at hfew
      simp at hfew
  have hnone : relation.joinTable = none := by
    rw [htable,Relational.joinTableOf,howner]
    rcases hkind with h | h <;> rw [h]
  have hmany : rel.cardinality ≠ some (.known .manyToMany) := by rcases hkind with h | h <;> simp [h]
  have hlost : ¬rel.LosesColumns := by rcases hkind with h | h <;> simp [Relationship.LosesColumns,h]
  refine ⟨?_,?_,.inr hnone,fun _ => ?_,fun h => absurd h hlost,?_⟩
  · rw [hj]
    exact iff_of_true rfl ⟨howner,hkind⟩
  · rw [hnone]
    exact iff_of_false Bool.false_ne_true fun h => hmany h.2
  · rw [joinNames,hj,hnone,← hnames]
    exact List.append_nil _
  · rw [hnone,hname]
    rfl

/-- A relation between many and many has both declared columns, but a single one is lost. -/
theorem joins_to_many {relation : Relation} {rel : Relationship Value} (hcolumn : relation.joinColumn = Relational.joinColumnOf rel)
    (htable : relation.joinTable = Relational.joinTableOf rel) (howner : rel.owner = true)
    (hkind : rel.cardinality = some (.known .manyToMany)) (hfew : rel.joinColumns.length ≤ 2) : relation.Joins rel := by
  have hloses : rel.LosesColumns ↔ rel.joinColumns.length = 1 := by rw [Relationship.LosesColumns,hkind]
  have hnone : relation.joinColumn = none := by rw [hcolumn,Relational.joinColumnOf,howner,hkind]
  obtain ⟨j,hj,hnames,hname⟩ : ∃ j, relation.joinTable = some j ∧
      j.columnNames = (if rel.joinColumns.length = 1 then [] else rel.joinColumns) ∧
      j.name? = if rel.joinTable.truthy then some rel.joinTable else none := by
    rw [htable,Relational.joinTableOf,howner,hkind]
    refine ⟨_,rfl,(JoinTable.said _ _).1.trans ?_,(JoinTable.said _ _).2⟩
    rcases hcolumns : rel.joinColumns with _ | ⟨near,_ | ⟨far,_ | ⟨other,rest⟩⟩⟩
    · rfl
    · rfl
    · rfl
    · rw [hcolumns] at hfew
      simp at hfew
  have hjoin : relation.joinNames = if rel.joinColumns.length = 1 then [] else rel.joinColumns := by
    rw [joinNames,hnone,hj,← hnames]
    rfl
  refine ⟨?_,?_,.inl hnone,fun hkept => ?_,fun hlost => ?_,?_⟩
  · rw [hnone]
    exact iff_of_false Bool.false_ne_true fun h => by simp [hkind] at h
  · rw [hj]
    exact iff_of_true rfl ⟨howner,hkind⟩
  · rw [hjoin,if_neg fun hone => hkept (hloses.mpr hone)]
  · rw [hjoin,if_pos (hloses.mp hlost)]
  · rw [hj]
    exact hname

theorem joins_of_declared {given : Given} {relation : Relation} {rel : Relationship Value} (h : rel.Declared given)
    (hcolumn : relation.joinColumn = Relational.joinColumnOf rel) (htable : relation.joinTable = Relational.joinTableOf rel) :
    relation.Joins rel := by
  have hname (hother : rel.cardinality ≠ some (.known .manyToMany)) : rel.joinTable.truthy = false :=
    Bool.eq_false_iff.mpr fun htruthy => hother (h.shaped htruthy)
  have hallowed := h.allowed
  have hfew := h.few
  -- no join is made for what is not owned, nor from the one side, nor for what is no known cardinality
  have hbare (hcolumn : relation.joinColumn = none) (htable : relation.joinTable = none)
      (hnames : ¬rel.LosesColumns → rel.joinColumns = []) (hnone : rel.cardinality ≠ some (.known .oneToOne) ∧
        rel.cardinality ≠ some (.known .manyToOne) ∧ rel.cardinality ≠ some (.known .manyToMany)) : relation.Joins rel :=
    joins_of_none hcolumn htable (hname hnone.2.2) hnames fun _ => hnone
  cases howner : rel.owner with
  | false =>
    have hnone : ¬(rel.joinColumns ≠ [] ∨ rel.joinTable.truthy = true) := fun hgiven =>
      Bool.noConfusion (howner.symm.trans (h.owned hgiven))
    obtain ⟨hnone,htruthy⟩ := not_or.mp hnone
    rw [Relational.joinColumnOf,howner] at hcolumn
    rw [Relational.joinTableOf,howner] at htable
    exact joins_of_none hcolumn htable (Bool.eq_false_iff.mpr htruthy) (fun _ => not_not.mp hnone)
      fun howns => Bool.noConfusion (howner.symm.trans howns)
  | true =>
    have hnames (hnone : (Relationship.joinAllowance rel.cardinality).2 = false) : rel.joinColumns = [] := by
      by_contra hsome
      exact Bool.noConfusion (hnone.symm.trans (hallowed hsome))
    cases hkind : rel.cardinality with
    | none =>
      refine hbare ?_ ?_ (fun _ => hnames (by rw [hkind]; rfl)) (by simp [hkind])
      · rw [hcolumn,Relational.joinColumnOf,howner,hkind]
      · rw [htable,Relational.joinTableOf,howner,hkind]
    | some kind =>
      rw [hkind] at hfew
      cases kind with
      | other v =>
        refine hbare ?_ ?_ (fun hkept => ?_) (by simp [hkind])
        · rw [hcolumn,Relational.joinColumnOf,howner,hkind]
        · rw [htable,Relational.joinTableOf,howner,hkind]
        · simpa [Relationship.LosesColumns,hkind] using hkept
      | known kind =>
        cases kind with
        | oneToOne => exact joins_to_one hcolumn htable howner (.inl hkind) hfew (hname (by simp [hkind]))
        | manyToOne => exact joins_to_one hcolumn htable howner (.inr hkind) hfew (hname (by simp [hkind]))
        | manyToMany => exact joins_to_many hcolumn htable howner hkind hfew
        | oneToMany =>
          refine hbare ?_ ?_ (fun _ => hnames (by rw [hkind]; rfl)) (by simp [hkind])
          · rw [hcolumn,Relational.joinColumnOf,howner,hkind]
          · rw [htable,Relational.joinTableOf,howner,hkind]

end Relation

namespace Registry

variable {r r' : Registry} {c d : Class Value} {key options : Value} {named : Given} {k : String}

/-- Whether a class has the relationship under a key from a class of its lineage: those before give none and do not
have the key by being a domain base. -/
def TakesFrom (r : Registry) (d : Class Value) (k : String) (name : ClassName) : Prop :=
  ∃ before after, d.lineage = before ++ name :: after ∧
    ∀ first ∈ before, r.declares? k Options.relationship first = none ∧ first.domainProperties.lookup k = none

theorem injects_relationship (name : ClassName) (k : String) : injects? k Options.relationship name = none := by
  rw [injects?,Option.bind_eq_none_iff]
  intro o hlookup
  have hmem := mem_of_lookup hlookup
  cases name with
  | defined => cases hmem
  | builtin b =>
    cases b with
    | entity =>
      simp only [ClassName.domainProperties,Builtin.domainProperties,List.mem_cons,List.not_mem_nil,or_false,
        Prod.mk.injEq] at hmem
      rcases hmem with ⟨_,rfl⟩ | ⟨_,rfl⟩ | ⟨_,rfl⟩ <;> rfl
    | enumeration =>
      simp only [ClassName.domainProperties,Builtin.domainProperties,List.mem_cons,List.not_mem_nil,or_false,
        Prod.mk.injEq] at hmem
      rcases hmem with ⟨_,rfl⟩ | ⟨_,rfl⟩ <;> rfl
    | _ => cases hmem

/-- What an accepted relationship leaves in a registry. -/
theorem outcome_relationship (h : (RegistryCall.relationship (.cls c) key options named).outcome r = .ok r') :
    ∃ k rel, key.text? = some k ∧ Options.builtLink (.cls c) key options named = .ok rel ∧
      r.registerEntries (.cls c) key [(.str "relationship", .relationship rel)] = .ok r' ∧
      r'.declared c.name = (r.declared c.name).upsert .overlay k { relationship := some rel } := by
  obtain ⟨rel,hrel,h⟩ := bind_eq_ok.mp h
  have hregistered := h
  rw [registerEntries_eq] at h
  obtain ⟨⟨_,k,o⟩,hread,h⟩ := bind_eq_ok.mp h
  obtain ⟨_,_,h⟩ := bind_eq_ok.mp h
  obtain ⟨heq,hkey,_,rel',hlink,rfl⟩ := 
    (Options.ofEntries_link_eq_ok rfl (List.forall_mem_singleton.mpr rfl)).mp hread
  cases heq
  rcases hlink with hlink | ⟨_,hlink,_⟩
  · cases hlink
    cases h
    refine ⟨k,rel,hkey,hrel,hregistered,?_⟩
    rw [declared_fileUnder,if_pos rfl]
  · cases hlink

theorem heard_of_declares {rel : Relationship Value} {name : ClassName}
    (h : r.declares? k Options.relationship name = some rel) : ∃ o, (r.heard name).lookup k = some o := by
  obtain ⟨o,ho,_⟩ := Option.bind_eq_some_iff.mp h
  exact ⟨o,ho⟩

theorem declares_of_declared {table : OptionTable} {rel : Relationship Value} {name : ClassName}
    (h : r.declared name = table.upsert .overlay k { relationship := some rel }) (hobject : name ≠ .builtin .object) :
    r.declares? k Options.relationship name = some rel := by
  rw [declares?,heard,if_neg hobject,h,OptionTable.lookup_upsert,if_pos rfl]
  rfl

/-- A key that is declared before any domain base has it is not synthetic. -/
theorem notSynthetic_of_declared {before after : List ClassName} {name : ClassName} {o : Options}
    (hdeclared : (r.heard name).lookup k = some o) (hbefore : ∀ first ∈ before, first.domainProperties.lookup k = none) :
    ¬r.IsSynthetic (before ++ name :: after) k := by
  induction before with
  | nil =>
    intro h
    have hnone := (reaches_cons.mp h).1
    rw [hdeclared] at hnone
    cases hnone
  | cons first before ih =>
    obtain ⟨hfirst,hbefore⟩ := List.forall_mem_cons.mp hbefore
    intro h
    rcases (reaches_cons.mp h).2 with hbase | hrest
    · rw [hfirst] at hbase
      cases hbase
    · exact ih hbefore hrest

/-- A class has the relationship that it takes from its lineage. -/
theorem TakesFrom.property (h : r.Tidy) {name : ClassName} {rel : Relationship Value} {described : Descriptor}
    (htakes : r.TakesFrom d k name) (hdeclared : r.declares? k Options.relationship name = some rel)
    (hd : r.descriptor (.cls d) = .ok described) :
    ∃ p ∈ described.properties, p.key = k ∧ p.relationship = some rel := by
  obtain ⟨before,after,hlineage,hbefore⟩ := htakes
  obtain ⟨o,ho⟩ := heard_of_declares hdeclared
  have inherits := h.inherits hd
  have hsupplied : r.IsSupplied d.lineage k := by
    refine ⟨name,by rw [hlineage]; simp,?_⟩
    rw [supplied?,Options.layered_isSome,ho]
    exact .inl rfl
  have hrelationship : (r.inherited d.lineage k).relationship = some rel := by
    have hnone : before.findSome? (fun first => r.declares? k Options.relationship first <|>
        injects? k Options.relationship first) = none := by
      rw [List.findSome?_eq_none_iff]
      intro first hfirst
      rw [(hbefore first hfirst).1,injects_relationship]
      rfl
    rw [inherited_part .relationship,hlineage,List.findSome?_append,hnone,List.findSome?_cons,hdeclared]
    rfl
  have hkept : ¬r.IsDropped d.lineage k := by
    rintro ⟨_,hsynthetic,_⟩
    rw [hlineage] at hsynthetic
    exact notSynthetic_of_declared ho (fun first hfirst => (hbefore first hfirst).2) hsynthetic
  have hkey : k ∈ described.keys := (inherits.keys k).mpr (.inl ⟨hsupplied,hkept⟩)
  obtain ⟨p,hp,rfl⟩ := List.mem_map.mp hkey
  exact ⟨p,hp,rfl,(inherits.parts p hp hsupplied).relationship.trans hrelationship⟩

end Registry

namespace Relational

variable {r : Registry} {c : Class Value} {d : Descriptor} {settings : Except Error Settings} {maxDepth : Option Int}
  {depth : Int} {t : Relational}

/-- A table that is no placeholder is that of a descriptor. -/
theorem compile_full (h : (compile r settings (.cls c) maxDepth depth).result = .ok t) (hfull : t.isPlaceholder = false) :
    ∃ d s, r.descriptor (.cls c) = .ok d ∧ settings = .ok s ∧ (ofDescriptor r s d).result = .ok t := by
  rcases compile_cases h with ⟨_,_,rfl⟩ | hdescribed
  · cases hfull
  · exact hdescribed

/-- A table has the relation of each relationship with a cardinality. -/
theorem relation?_joins {s : Settings} {given : Given} {p : Property} {rel : Relationship Value}
    (hd : r.descriptor (.cls c) = .ok d) (ht : (ofDescriptor r s d).result = .ok t) (hp : p ∈ d.properties)
    (hrel : p.relationship = some rel) (hdeclared : rel.Declared given) (hkind : rel.cardinality.isSome = true) :
    ∃ relation, t.relation? p.key = some relation ∧ relation.Joins rel := by
  obtain ⟨relations,hrelations,ht⟩ := bind_eq_ok.mp ht
  obtain ⟨columns,_,ht⟩ := bind_eq_ok.mp ht
  cases pure_eq_ok.mp ht
  have hkeys : (d.links.map (·.1)).Nodup := TableBinding.links_keys
    ((List.filter_sublist.map _).nodup (Registry.merge_keys_nodup (Registry.descriptor_registered hd)))
  rcases relationsOf_find hrelations hkeys (TableBinding.mem_links hd hp hrel) with ⟨hnone,_⟩ | ⟨_,relation,_,hof,hfound⟩
  · rw [hnone] at hkind
    cases hkind
  · obtain ⟨_,_,hcolumn,htable⟩ := relationOf_ok hof
    exact ⟨relation,hfound,Relation.joins_of_declared hdeclared hcolumn htable⟩

end Relational

namespace CachedRegistry

open Registry

variable {c : Class Value} {key options : Value} {named : Given}

theorem after_property {s : CachedRegistry} {cls : TypeExpr Value} {given : Given} {r : Registry}
    (h : s.registry.registerProperty cls key given = .ok r) :
    (Demand.property cls key given).after s = { s with registry := r } := by
  rw [Demand.after,Demand.serve,Serving.run_change]
  simp only [h]

/-- A relationship that was accepted, and that stays what it is, has its join in every table that takes it over: the
relation has the columns and the table that were declared, but for columns that are lost. -/
theorem relationship_joins {demands later : List Demand} {accepted s : CachedRegistry}
    (haccepted : (RegistryCall.relationship (.cls c) key options named).make.run (run {} demands) = (.ok (), accepted))
    (hoptions : ∀ rel, options ≠ .relationship rel) (hs : s = run accepted later) :
    ∃ k es rel, key.text? = some k ∧ Options.overlaid options named = .ok es ∧ rel.Declared (.ofEntries es) ∧
      (c.name ≠ .builtin .object → accepted.registry.declares? k Options.relationship c.name = some rel) ∧
      (s.registry.declares? k Options.relationship c.name = some rel → rel.cardinality.isSome = true →
        ∀ {d : Class Value} {settings : Except Error Settings} {maxDepth : Option Int} {depth : Int} {t : Relational},
          s.registry.TakesFrom d k c.name →
          (Relational.compile s.registry settings (.cls d) maxDepth depth).result = .ok t → t.isPlaceholder = false →
          ∃ relation, t.relation? k = some relation ∧ relation.Joins rel) := by
  rw [RegistryCall.run_make,Serving.run_change] at haccepted
  cases houtcome : (RegistryCall.relationship (.cls c) key options named).outcome (run {} demands).registry with
  | error e =>
    rw [houtcome] at haccepted
    cases haccepted
  | ok r =>
    rw [houtcome] at haccepted
    obtain ⟨k,rel,hkey,hbuilt,hregistered,hdeclared⟩ := outcome_relationship houtcome
    obtain ⟨es,hgiven,hbuilt⟩ : ∃ es, Options.overlaid options named = .ok es ∧
        Relationship.ofEntries (TypeExpr.cls c).ownName (key.text?.getD key.display) es = .ok rel := by
      rw [Options.builtLink] at hbuilt
      · exact bind_eq_ok.mp hbuilt
      · exact hoptions
    have htells := Relationship.build_declared (Relationship.ofEntries_build hbuilt)
    obtain rfl : { (run {} demands) with registry := r } = accepted := (Prod.mk.inj haccepted).2
    refine ⟨k,es,rel,hkey,hgiven,htells,declares_of_declared hdeclared,
      fun hstays hkind d settings maxDepth depth t htakes hcompile hfull => ?_⟩
    have hproperty : (run {} demands).registry.registerProperty (.cls c) key [("relationship", .relationship rel)] = .ok r :=
      hregistered
    have hrun : s = run {} (demands ++ .property (.cls c) key [("relationship", .relationship rel)] :: later) := by
      rw [hs,← after_property hproperty,run,run,run,List.foldl_append,List.foldl_cons]
    obtain ⟨_,htidy⟩ := coherent_tidy hrun
    obtain ⟨described,s',hd,_,ht⟩ := Relational.compile_full hcompile hfull
    obtain ⟨p,hp,rfl,hrel⟩ := htakes.property htidy hstays hd
    exact Relational.relation?_joins hd ht hp hrel htells hkind

/-- A class of orders. -/
def order : Class Value := ⟨.defined "Order" 0 [.builtin .entity, .builtin .object], none⟩

/-- The options of a link between orders that owns one join column. -/
def joining (cardinality : String) : Value := .mapping [(.str "edge_type", .str "JOINS"),
  (.str "target", .type (.cls order)), (.str "cardinality", .str cardinality), (.str "owner", .bool true),
  (.str "join_columns", .str "order_id")]

/-- What registering that link answers and leaves. -/
def joined (cardinality : String) : Except Error Unit × CachedRegistry :=
  (RegistryCall.relationship (.cls order) (.str "others") (joining cardinality) []).make.run (run {} [])

/-- The table of orders. -/
def orders (cardinality : String) : Except Error Relational :=
  (Relational.compile (joined cardinality).2.registry (.ok Settings.defaults) (.cls order) none 0).result

theorem eq_of_isOk {answer : Except Error Unit × CachedRegistry} (h : answer.1.isOk = true) :
    answer = (.ok (), answer.2) := by
  obtain ⟨answer,s⟩ := answer
  obtain ⟨_,rfl⟩ := exists_ok_of_isOk h
  rfl

/-- Whether a relationship is one from many with the column `order_id`. -/
def isOrderLink (rel : Relationship Value) : Bool :=
  match rel.cardinality with
  | some (.known .manyToOne) => rel.joinColumns == ["order_id"]
  | _ => false

theorem relationship_joins_orders : ∃ t relation, orders "many-to-one" = .ok t ∧ t.relation? "others" = some relation ∧
    relation.joinNames = ["order_id"] := by
  have haccepted : (RegistryCall.relationship (.cls order) (.str "others") (joining "many-to-one") []).make.run
      (run {} []) = (.ok (), (joined "many-to-one").2) := eq_of_isOk (by decide +kernel)
  have hoptions (rel : Relationship Value) : joining "many-to-one" ≠ .relationship rel := nofun
  have hlater : (joined "many-to-one").2 = run (joined "many-to-one").2 [] := by rw [run,List.foldl_nil]
  have hcompiled : (orders "many-to-one").toOption.any (fun t => !t.isPlaceholder) = true := by decide +kernel
  have hlink : ((joined "many-to-one").2.registry.declares? "others" Options.relationship order.name).any isOrderLink = true := by
    decide +kernel
  obtain ⟨t,ht,hfull⟩ := exists_ok_of_any hcompiled
  have hall := relationship_joins haccepted hoptions hlater
  obtain ⟨k,given,rel,hkey,_,_,hdeclares,hjoins⟩ := hall
  cases hkey
  have hdeclares := hdeclares nofun
  rw [hdeclares,Option.any_some,isOrderLink] at hlink
  split at hlink
  · rename_i hkind
    obtain ⟨relation,hrelation,joins⟩ := hjoins hdeclares (by rw [hkind]; rfl) ⟨[],_,rfl,nofun⟩ ht (by simpa using hfull)
    refine ⟨t,relation,ht,hrelation,(joins.named ?_).trans (beq_iff_eq.mp hlink)⟩
    rw [Relationship.LosesColumns,hkind]
    exact id
  · cases hlink

/-- A single join column between many and many is accepted, and no relation has it. -/
theorem relationship_joins_lost : (joined "many-to-many").1 = .ok () ∧
    ((joined "many-to-many").2.registry.declares? "others" Options.relationship order.name).map (·.joinColumns) =
      some ["order_id"] ∧
    ∃ t relation, orders "many-to-many" = .ok t ∧ t.relation? "others" = some relation ∧
      relation.joinTable.isSome = true ∧ relation.joinNames = [] := by
  have hcompiled : (orders "many-to-many").toOption.any (fun t => (t.relation? "others").any fun relation =>
      relation.joinTable.isSome && relation.joinNames == []) = true := by
    decide +kernel
  obtain ⟨t,ht,hrelation⟩ := exists_ok_of_any hcompiled
  rw [Option.any_eq_true] at hrelation
  obtain ⟨relation,hfound,hjoin⟩ := hrelation
  obtain ⟨htable,hnames⟩ := Bool.and_eq_true_iff.mp hjoin
  exact ⟨congrArg Prod.fst (eq_of_isOk (by decide +kernel)),by decide +kernel,t,relation,ht,hfound,htable,
    beq_iff_eq.mp hnames⟩

end CachedRegistry

end Trischema
