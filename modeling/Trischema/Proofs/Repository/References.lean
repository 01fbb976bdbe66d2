import Trischema.Proofs.Registry.Inheritance
import Trischema.Proofs.Repository.Returning

/-!
References to stored instances. A relationship keeps of an entity the identifier that it holds under `id`, and of any
other instance the text that it shows; a repository keeps an instance under the text of its identifying property. For
entities these are one and the same unless the class declares another key to be the identifier.
-/

namespace Trischema

namespace Registry

variable {r : Registry} {c : Class Value} {d : Descriptor} {key : String} {lineage : List ClassName}

theorem IsSynthetic.key_eq (h : r.IsSynthetic lineage key) : key = "id" := by
  obtain ⟨_,base,_,_,hbase,_⟩ := h
  obtain ⟨o,ho,hsynthetic⟩ := Option.any_eq_true _ _ |>.mp hbase
  exact base.domainProperties_synthetic _ (mem_of_lookup ho) hsynthetic

/-- A property that identifies is the one whose key was declared to be the identifier, and `id` where none was. -/
theorem Tidy.identifier_key (h : r.Tidy) (hd : r.descriptor (.cls c) = .ok d) {p : Property} (hp : p ∈ d.properties)
    (hidentifies : p.isIdentifier = true) : (∀ key, r.IsDeclaredIdentifier c.lineage key → p.key = key) ∧
      ((∀ key, ¬r.IsDeclaredIdentifier c.lineage key) → p.key = "id") := by
  have inherits := h.inherits hd
  constructor
  · intro key hdeclared
    have hsupplied := supplied_of_identifies h hdeclared.1
    have hkey := (inherits.keys key).mpr (.inl ⟨hsupplied,fun hdropped => hdeclared.2 hdropped.2.1⟩)
    obtain ⟨q,hq,rfl⟩ := List.mem_map.mp hkey
    have hqid : q.isIdentifier = true := by rw [(inherits.parts q hq hsupplied).isIdentifier,hdeclared.1]
    have hunique := (merge_identifiers_length (descriptor_registered hd)).1
    rw [Descriptor.eq_of_identifier hunique hp hq hidentifies hqid]
  · intro hnone
    by_cases hsupplied : r.IsSupplied c.lineage p.key
    · -- only domain bases bring undeclared identifiers, and they bring `id`
      rw [(inherits.parts p hp hsupplied).isIdentifier] at hidentifies
      have hsynthetic : r.IsSynthetic c.lineage p.key := by
        by_contra hdeclared
        exact hnone p.key ⟨hidentifies,hdeclared⟩
      exact hsynthetic.key_eq
    · exact (inherits.putIn p hp hsupplied).1

/-- A property that was declared as a relationship is kept as one. -/
theorem isRelationship_of_linked (hd : r.descriptor (.cls c) = .ok d) {p : Property} (hp : p ∈ d.properties)
    {rel : Relationship Value} (hlinked : p.relationship = some rel) : p.isRelationship = true := by
  obtain ⟨table,merged⟩ := merge_cases (descriptor_registered hd)
  obtain ⟨⟨key,o⟩,_,hproperty⟩ := exists_left_of_forall₂ (properties_ok merged.properties) hp
  obtain ⟨k,hk,rfl⟩ := property_ok hproperty
  have hrel : o.relationship = some rel := hlinked
  rw [classify,hrel] at hk
  cases hk
  rfl

end Registry

namespace Object

variable {o : Object Value} {c : Class Value}

/-- The instances of a class are those whose class inherits from all that it inherits from. -/
def IsInstance (o : Object Value) (c : Class Value) : Prop := c.lineage ⊆ o.cls.lineage

theorem IsInstance.isA (h : o.IsInstance c) {b : Builtin} (hc : c.isA b = true) : o.cls.isA b = true := by
  rw [Class.isA,List.contains_iff_mem] at hc ⊢
  exact h hc

end Object

namespace Value

variable {o : Object Value} {v w : Value} {xs ys : List Value}

theorem reference_entity (h : o.cls.isA .entity = true) {i : String} (hid : o.value? "id" = some (.identifier i)) :
    (object o).reference = .ok (.str i) := by
  rw [reference,if_pos h]
  have hattribute : (object o).getAttribute "id" = .ok (.identifier i) := by
    rw [getAttribute,attribute?,hid]
  rw [hattribute]
  rfl

theorem reference_plain (h : o.cls.isA .entity = false) : (object o).reference = .ok (.str (object o).display) := by
  rw [reference,if_neg (by rw [h]; exact Bool.false_ne_true)]

theorem referenceAll_ok (h : referenceAll xs = .ok ys) : List.Forall₂ (fun x y => x.reference = .ok y) xs ys := by
  induction xs generalizing ys with
  | nil =>
    cases h
    exact .nil
  | cons x xs ih =>
    obtain ⟨y,hy,h⟩ := bind_eq_ok.mp h
    obtain ⟨rest,hrest,h⟩ := bind_eq_ok.mp h
    cases pure_eq_ok.mp h
    exact .cons hy (ih hrest)

/-- The collections whose elements a relationship refers to one by one. -/
inductive Collects : Value → List Value → Prop
  | list (xs : List Value) : Collects (.list xs) xs
  | tuple (xs : List Value) : Collects (.tuple xs) xs
  | set (xs : List Value) : Collects (.set xs) xs

theorem Collects.reference (h : Collects v xs) (hok : v.reference = .ok w) :
    ∃ ys, w = .list ys ∧ List.Forall₂ (fun x y => x.reference = .ok y) xs ys := by
  have hall : (referenceAll xs >>= fun ys => .ok (.list ys)) = Except.ok w := by
    cases h <;> exact hok
  obtain ⟨ys,hys,hw⟩ := bind_eq_ok.mp hall
  cases hw
  exact ⟨ys,rfl,referenceAll_ok hys⟩

end Value

section Inserting

open Write Adapter

variable {call : Call} {id : String} {record : Record}

theorem prepare_insert {σ : Type} {w : Writing σ} (h : (runOn (prepare .insert) w).1 = .ok (id, record)) :
    w.repository.entityId w.entity = .ok id ∧
      ((w.repository.descriptor.record w.entity).runIn w.world).1 = .ok record := by
  obtain ⟨id₁,w₁,hid,h⟩ := runOn_bind_ok h
  obtain ⟨record₁,w₂,hrecord,h⟩ := runOn_bind_ok h
  cases h
  rw [runOn_entityId,Prod.mk.injEq] at hid
  obtain ⟨hid,rfl⟩ := hid
  exact ⟨hid,congrArg Prod.fst hrecord⟩

/-- An insertion into memory that succeeds adds what is prepared of the instance, under an identifier that was free. -/
theorem Call.inserted {opened : Repository × Records} (hop : call.operation = .insert)
    (hok : (call.on Operation.onRecords opened).1 = .ok ()) : ∃ id record,
      opened.1.entityId call.entity = .ok id ∧
      ((opened.1.descriptor.record call.entity).runIn call.world).1 = .ok record ∧ opened.2.contains id = false ∧
      (call.on Operation.onRecords opened).2.2 = opened.2 ++ [(id, record)] := by
  have hready : Records.adapter.Ready call.operation (call.writing opened) := by
    rw [hop]
    exact fun h => by cases h
  have hspec := write_spec hready
  rw [write_records,hop] at hspec
  rcases hprepare : (runOn (prepare .insert) (call.writing opened)).1 with e | ⟨id,record⟩ <;> rw [hprepare] at hspec
  · rw [← hop] at hspec
    rw [Call.on_refused hspec] at hok
    cases hok
  · obtain ⟨hid,hrecord⟩ := prepare_insert hprepare
    dsimp only at hspec
    generalize hchange : Records.adapter.change _ _ _ _ _ = changed at hspec
    rw [← hop] at hspec
    cases hspec with
    | refused hrefused =>
      rw [Call.on_refused hrefused] at hok
      cases hok
    | @finished store hfinished =>
      rw [Call.on_finished hfinished]
      change Records.insert _ opened.2 id record = .ok store at hchange
      rw [Records.insert] at hchange
      split at hchange
      · cases hchange
      · rename_i hnew
        obtain ⟨_,_,hstore⟩ := bind_eq_ok.mp hchange
        refine ⟨id,record,hid,hrecord,Bool.eq_false_iff.mpr hnew,?_⟩
        exact (pure_eq_ok.mp hstore).symm

/-- What was added under a free identifier is found by its text, and all else as before. -/
theorem Repository.findRecord_append (r : Repository) {records : Records} (hnew : records.contains id = false)
    (record : Record) (v : Value) : r.findRecord (records ++ [(id, record)]) v =
      if v.display = id then r.hydrate record else r.findRecord records v := by
  have hnone : records.lookup id = none := Option.not_isSome_iff_eq_none.mp (Bool.eq_false_iff.mp hnew)
  rw [findRecord,findRecord,List.lookup_append]
  by_cases hv : v.display = id
  · rw [hv,hnone,if_pos rfl]
    simp only [List.lookup_cons_self,Option.none_or]
    exact r.requireHydrator_hydrate record
  · rw [if_neg hv,List.lookup_cons,beq_eq_false_iff_ne.mpr hv]
    simp

end Inserting

namespace TableBinding

/-- A repository of a class over a table that was made for it, after some writes. -/
structure Opened (registry : Registry) (c : Class Value) (s : Settings) (r : Repository) (b : TableBinding)
    (opened : Repository × Database) : Prop where
  schema : ∃ schema, (Relational.compile registry (.ok s) (.cls c) none 0).result = .ok schema ∧
    ofSchema r.descriptor schema = .ok b
  writes : ∃ db₀ db calls, b.definition.create db₀ = .ok db ∧ db₀.table? b.definition.name = none ∧
    (∀ call ∈ calls, b.Admits r call) ∧ opened = Call.run (·.onRows b) (r, db) calls

variable {registry : Registry} {c : Class Value} {s : Settings} {r : Repository} {b : TableBinding}
  {opened : Repository × Database}

theorem Opened.stocked (h : Opened registry c s r b opened) (hd : registry.descriptor (.cls c) = .ok r.descriptor) :
    Bound s r.descriptor b ∧ b.Stocked r b.Takes opened := by
  obtain ⟨schema,hschema,hb⟩ := h.schema
  obtain ⟨db₀,db,calls,hcreate,hnew,hadmits,rfl⟩ := h.writes
  have hbound := bound_of_created hd (compile_registered hd hschema) hb hcreate hnew
  refine ⟨hbound,(Stocked.created hcreate hnew).run hbound fun call hcall record ⟨hop,id,hprepare⟩ => ?_⟩
  exact hadmits call hcall hop id record hprepare

end TableBinding

/-- How a relationship refers to an instance, and what the repository of the class of its target makes of that. -/
structure Refers (registry : Registry) (c : Class Value) (r : Repository) (o : Object Value) : Prop where
  kind : c.isA .entity = true → o.cls.isA .entity = true
  /-- an entity is referred to by the identifier that it holds under `id` -/
  entity : o.cls.isA .entity = true → ∀ i, o.value? "id" = some (.identifier i) →
    (Value.object o).reference = .ok (.str i)
  /-- which is the one that it is stored under, where the class declares no other key to be the identifier -/
  own : (∀ key, registry.IsDeclaredIdentifier c.lineage key → key = "id") →
    ∀ i, o.value? "id" = some (.identifier i) → r.entityId (.object o) = .ok i
  /-- a key that is declared to be the identifier is the one that it is stored under -/
  declared : ∀ key, registry.IsDeclaredIdentifier c.lineage key → r.identifier.key = key
  plain : o.cls.isA .entity = false → (Value.object o).reference = .ok (.str (Value.object o).display)
  /-- once inserted into memory it is found by the identifier that it is stored under, and by nothing else -/
  memory : ∀ {call : Call} {opened : Repository × Records}, (∃ published, opened.1 = { r with published }) →
    call.operation = .insert → call.entity = .object o → (call.on Operation.onRecords opened).1 = .ok () →
    ∃ id record, r.entityId (.object o) = .ok id ∧
      ((r.descriptor.record (.object o)).runIn call.world).1 = .ok record ∧
      ∀ v, r.findRecord (call.on Operation.onRecords opened).2.2 v =
        if v.display = id then r.hydrate record else r.findRecord opened.2 v
  /-- once inserted into a table it is found by that identifier, if columns of its kind are found by their texts -/
  table : ∀ {s : Settings} {b : TableBinding} {call : Call} {opened : Repository × Database},
    b.Opened registry c s r opened → call.operation = .insert → call.entity = .object o → b.Admits r call →
    (call.on (·.onRows b) opened).1 = .ok () →
    ∃ id record found, r.entityId (.object o) = .ok id ∧
      ((r.descriptor.record (.object o)).runIn call.world).1 = .ok record ∧
      b.ReadBack r.identifier (call.on (·.onRows b) opened).2.2 id record found ∧
      ((∀ c, (r.identifier.key, c) ∈ b.columns → c.type.finds (record.field r.identifier.key) = true) →
        ∀ v : Value, v.display = id → r.findRow b (call.on (·.onRows b) opened).2.2 v = r.hydrate found)

namespace CachedRegistry

variable {s : CachedRegistry} {c target : Class Value} {d : Descriptor} {r : Repository}

theorem refers {registry : Registry} (htidy : registry.Tidy) (hd : registry.descriptor (.cls target) = .ok r.descriptor)
    (hidentifier : r.descriptor.identifier? = some r.identifier) {o : Object Value} (ho : o.IsInstance target) :
    Refers registry target r o where
  kind := ho.isA
  entity hentity i hid := Value.reference_entity hentity hid
  own hown i hid := by
    have hmem := List.mem_of_find?_eq_some hidentifier
    obtain ⟨hdeclared,hnone⟩ := htidy.identifier_key hd hmem (List.find?_some hidentifier)
    have hkey : r.identifier.key = "id" := by
      by_cases h : ∃ key, registry.IsDeclaredIdentifier target.lineage key
      · obtain ⟨key,hkey⟩ := h
        rw [hdeclared key hkey,hown key hkey]
      · exact hnone (not_exists.mp h)
    have hvalue : (Value.object o).attributeOrNull "id" = .identifier i := by
      rw [Value.attributeOrNull,Value.attribute?,hid]
      rfl
    rw [Repository.entityId,hkey,hvalue]
    rfl
  declared := (htidy.identifier_key hd (List.mem_of_find?_eq_some hidentifier) (List.find?_some hidentifier)).1
  plain := Value.reference_plain
  memory := by
    rintro call ⟨_,records⟩ ⟨published,rfl⟩ hop hentity hok
    obtain ⟨id,record,hid,hrecord,hnew,hleft⟩ := Call.inserted hop hok
    rw [hentity] at hid hrecord
    refine ⟨id,record,hid,hrecord,fun v => ?_⟩
    rw [hleft]
    exact r.findRecord_append hnew record v
  table := by
    intro s b call opened hopened hop hentity hadmits hok
    obtain ⟨hbound,hstocked⟩ := hopened.stocked hd
    -- the row that was inserted is the only one with its identifier
    obtain ⟨id,record,t,row,hprepare,ht,hinserts⟩ := hstocked.inserted hbound hop hadmits hok
    obtain ⟨hid,hrecord⟩ := prepare_insert hprepare
    have hmem := List.mem_of_find?_eq_some hidentifier
    have hdisplay (hscalar : r.identifier.isRelationship = false) : (record.field r.identifier.key).display = id :=
      Adapter.prepare_display hprepare hbound.keys hmem hscalar
    obtain ⟨found,hfound⟩ := hinserts.readBack hbound ht hmem (List.find?_some hidentifier) hdisplay
    change r.entityId call.entity = .ok id at hid
    change ((r.descriptor.record call.entity).runIn call.world).1 = .ok record at hrecord
    rw [hentity] at hid hrecord
    refine ⟨id,record,found,hid,hrecord,hfound,fun hfinds v hv => ?_⟩
    rw [← hfound.found hfinds r,← hv]
    rfl

/-- A record refers to the value of a relationship, or to the elements of a collection one by one, and to an instance
by the identifier that its repository stores it under unless the class declares another key than `id` to be the
identifier or is no entity class. -/
theorem references_point {demands : List Demand} (hs : s = run {} demands)
    (hd : (s.descriptor (.cls c)).1 = .ok d) {p : Property} (hp : p ∈ d.properties) {rel : Relationship Value}
    (hlinked : p.relationship = some rel) {dt : Descriptor} (hdt : (s.descriptor (.cls target)).1 = .ok dt)
    {publisher : Option Publisher} (hr : Repository.ofDescriptor dt publisher = .ok r)
    {entity : Value} {world : World} {record : Record} (hrecord : ((d.record entity).runIn world).1 = .ok record) :
    (∀ o, entity.attributeOrNull p.key = .object o → (Value.object o).reference = .ok (record.field p.key)) ∧
    (∀ xs, Value.Collects (entity.attributeOrNull p.key) xs → ∃ ys, record.field p.key = .list ys ∧
      List.Forall₂ (fun x y => x.reference = .ok y) xs ys) ∧
    ∀ (hydrator : Option Hydrator) (o : Object Value), o.IsInstance target →
      Refers s.registry target { r with hydrator } o := by
  obtain ⟨hcoherent,htidy⟩ := coherent_tidy hs
  rw [(hcoherent.descriptor _).1] at hd hdt
  have hkeys : (d.properties.map (·.key)).Nodup := Registry.merge_keys_nodup (Registry.descriptor_registered hd)
  have hstored (hthere : entity.attributeOrNull p.key ≠ .null) :
      (entity.attributeOrNull p.key).reference = .ok (record.field p.key) := by
    have h := Descriptor.recordFor_stored hrecord hkeys hp hthere
    rwa [Property.stored,Registry.isRelationship_of_linked hd hp hlinked,if_pos rfl] at h
  refine ⟨fun o ho => ?_,fun xs hxs => ?_,fun hydrator o ho => ?_⟩
  · rw [ho] at hstored
    exact hstored Value.noConfusion
  · refine hxs.reference (hstored fun hnull => ?_)
    rw [hnull] at hxs
    cases hxs
  · obtain ⟨_,hidentifier,rfl⟩ := Repository.ofDescriptor_eq_ok hr
    exact refers htidy hdt hidentifier ho

/-- Countries, whose codes may be declared to be their identifiers, and cities in them. -/
def country : Class Value := ⟨.defined "Country" 0 [.builtin .entity, .builtin .object], none⟩

def city : Class Value := ⟨.defined "City" 1 [.builtin .entity, .builtin .object], none⟩

def atlas (coded : Bool) : List Demand :=
  [.property (.cls country) (.str "code") [("type", .type (.builtin .text)), ("is_identifier", .bool coded)],
    .relationship (.cls city) (.str "country") [("edge_type", .str "IN"), ("target", .str "Country"),
      ("cardinality", .str "many-to-one"), ("owner", .bool true)]]

def france : Object Value := ⟨0, country, [("id", .identifier "1"), ("code", .str "FR")], [], []⟩

def paris : Value := .object ⟨1, city, [("id", .identifier "2"), ("country", .object france)], [], []⟩

def settling : Call := ⟨.insert, .object france, { clock := default }⟩

/-- The descriptor of cities, the link to their countries with its target, a repository of that, and the record of
Paris. -/
def mapped (coded : Bool) : Except Error (Descriptor × Property × Class Value × Repository × Record) := do
  let s := run {} (atlas coded)
  let d ← (s.descriptor (.cls city)).1
  let some p := d.get? "country" | .error (.failure .key)
  let target ← s.registry.resolveProperty city p
  let dt ← (s.descriptor (.cls target)).1
  let r ← Repository.ofDescriptor dt none
  let record ← ((d.record paris).runIn { clock := default }).1
  return (d, p, target, { r with hydrator := some .whole }, record)

/-- What the record of Paris has for its country, under which text the country is stored, and whether nothing is found
under that reference once it is. -/
def visited (coded : Bool) : Except Error (List ClassName × Option String × String × Bool) := do
  let (_, p, target, r, record) ← mapped coded
  let id ← r.entityId (.object france)
  let v ← r.findRecord (settling.on Operation.onRecords (r, [])).2.2 (record.field p.key)
  return (target.lineage, (record.field p.key).text?, id, v.isNull)

/-- Countries without declared codes are found by the references of their cities. -/
theorem references_point_atlas : ∃ d p target r record, mapped false = .ok (d, p, target, r, record) ∧
    (Value.object france).reference = .ok (record.field p.key) ∧ Refers (run {} (atlas false)).registry target r france ∧
    record.field p.key = .str "1" ∧ r.entityId (.object france) = .ok "1" := by
  have hvisited : visited false = .ok (country.lineage, some "1", "1", false) := by with_unfolding_all rfl
  obtain ⟨⟨d,p,target,r,record⟩,hmapped,hvisited⟩ := bind_eq_ok.mp hvisited
  obtain ⟨id,hid,hvisited⟩ := bind_eq_ok.mp hvisited
  obtain ⟨v,hv,hvisited⟩ := bind_eq_ok.mp hvisited
  obtain ⟨hlineage,_,rfl,_⟩ : target.lineage = country.lineage ∧ _ ∧ id = "1" ∧ _ := by
    simpa only [Prod.mk.injEq] using pure_eq_ok.mp hvisited
  have hmade := hmapped
  obtain ⟨_,hd,hmade⟩ := bind_eq_ok.mp hmade
  split at hmade
  · rename_i p' hp
    obtain ⟨_,hresolved,hmade⟩ := bind_eq_ok.mp hmade
    obtain ⟨dt,hdt,hmade⟩ := bind_eq_ok.mp hmade
    obtain ⟨r',hr,hmade⟩ := bind_eq_ok.mp hmade
    obtain ⟨_,hrecord,hmade⟩ := bind_eq_ok.mp hmade
    cases pure_eq_ok.mp hmade
    rw [Registry.resolveProperty] at hresolved
    split at hresolved
    · rename_i rel hlinked
      have hkey : p.key = "country" := by simpa using List.find?_some hp
      obtain ⟨hone,_,hrefers⟩ := references_point rfl hd (List.mem_of_find?_eq_some hp) hlinked hdt hr hrecord
      have hinstance : france.IsInstance target := by
        rw [Object.IsInstance,hlineage]
        exact List.Subset.refl _
      have hreference := hone france (by rw [hkey]; rfl)
      have hfrance := hrefers (some .whole) france hinstance
      refine ⟨_,_,_,_,_,hmapped,hreference,hfrance,?_,hid⟩
      exact Except.ok.inj (hreference.symm.trans (hfrance.entity rfl "1" rfl))
    · cases hresolved
  · cases hmade

/-- A country whose code is its identifier is stored under the code, referred to by another text, and not found by
that. -/
theorem references_point_coded : visited true = .ok (country.lineage, some "1", "FR", true) := by
  with_unfolding_all rfl

end CachedRegistry

end Trischema
