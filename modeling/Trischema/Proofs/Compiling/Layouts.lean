import Trischema.Proofs.Compiling.Expansion
import Trischema.Proofs.Compiling.Graph
import Trischema.Proofs.Compiling.Relational
import Trischema.Proofs.Relational.Columns
import Trischema.Proofs.Classifying

/-!
How the three backends lay out one class. The properties that are no links have, in their order, a field, a property
of the node and a column, which agree on what they restrict and are the images of one layout.
-/

namespace Trischema

/-- How what is kept of a property is laid out: one scalar, an array of scalars, one instance or an array of
instances. -/
inductive Layout
  | scalar (s : Scalar)
  | scalars (s : Scalar)
  | embedded
  | embeddedArray
  deriving DecidableEq, Repr

namespace Layout

/-- The layout of a classification; a link has none. -/
def ofClassification? : Classification → Option Layout
  | .single e => some (e.scalar?.elim embedded scalar)
  | .array e => some (e.scalar?.elim embeddedArray scalars)
  | .relationship _ => none

/-- The type of a field, that of its elements, and whether a schema is nested in it. -/
def inDocument : Layout → String × Option String × Bool
  | scalar s => (s.bsonType, none, false)
  | scalars s => ("array", some s.bsonType, false)
  | embedded => ("object", none, true)
  | embeddedArray => ("array", none, true)

/-- The type of a property of a node. -/
def inGraph : Layout → String
  | scalar s => s.text
  | scalars s => s.text ++ "[]"
  | embedded => Scalar.object.text
  | embeddedArray => Scalar.object.text ++ "[]"

/-- The type of a column and that of its elements. -/
def inTable : Layout → ColumnType × Option ColumnType
  | scalar s => (.ofScalar s, none)
  | scalars s => (.array, some (.ofScalar s))
  | embedded | embeddedArray => (.document, none)

end Layout

/-- Merged properties that are no links have the values that the merged options declare. -/
theorem Registry.merge_given {r : Registry} {c : Class Value} {d : Descriptor} {p : Property} (h : r.merge c = .ok d)
    (hp : p ∈ d.properties) {k : Classification} (hk : p.classification = some k)
    (hscalar : p.isRelationship = false) {vs : List Value} (hvs : p.enum = some vs) : k.values? = some vs := by
  obtain ⟨table,hmerged⟩ := merge_cases h
  obtain ⟨⟨key,o⟩,_,hproperty⟩ := exists_left_of_forall₂ (properties_ok hmerged.properties) hp
  obtain ⟨k',hk',rfl⟩ := property_ok hproperty
  cases hk
  have hclass := ofProperty_of_classify hk'
  rw [Classification.ofProperty.eq_def] at hclass
  split at hclass
  · cases hclass
    cases hscalar
  · rw [show o.enum = some vs from hvs] at hclass
    exact Classification.ofType_given hclass

/-- The field, the property of a node and the column of a property that is no link. They differ in the name of the
identifier alone, and are the images of the layout of the property. -/
structure Carries (s : Settings) (p : Property) (f : Field Document) (n : NodeProperty) (c : Column) : Prop where
  names : f.name = (if p.isIdentifier then s.documentIdField else p.key) ∧
    n.name = Renaming.ofIdentifier s.documentIdField s.graphIdField p ∧
    c.name = Renaming.ofIdentifier s.documentIdField s.relationalIdField p
  identifies : f.isIdentifier = p.isIdentifier ∧ n.isIdentifier = p.isIdentifier ∧ c.primary = p.isIdentifier
  optional : f.optional = p.optional ∧ n.optional = p.optional ∧ c.nullable = p.optional
  unique : f.unique.getD false = c.unique ∧ n.unique.getD false = c.unique ∧
    c.unique = (p.unique.getD false || p.isIdentifier)
  enum : f.enum = c.enum ∧ n.enum = c.enum ∧ ∀ vs, p.enum = some vs → c.enum = some vs
  layout : ∃ l, p.classification.bind Layout.ofClassification? = some l ∧
    (f.shape.typeText, f.shape.itemsText?, f.shape.nested?.isSome) = l.inDocument ∧ n.typeText = l.inGraph ∧
    (c.type, c.elements) = l.inTable

/-- Four lists that go together place by place. -/
inductive Abreast {α β γ δ : Type} (R : α → β → γ → δ → Prop) : List α → List β → List γ → List δ → Prop
  | nil : Abreast R [] [] [] []
  | cons {a : α} {b : β} {c : γ} {d : δ} {as : List α} {bs : List β} {cs : List γ} {ds : List δ} (head : R a b c d)
    (tail : Abreast R as bs cs ds) : Abreast R (a :: as) (b :: bs) (c :: cs) (d :: ds)

theorem abreast_of_forall₂ {α β γ δ : Type} {R : α → β → Prop} {S : α → γ → Prop} {T : α → δ → Prop}
    {U : α → β → γ → δ → Prop} {as : List α} {bs : List β} {cs : List γ} {ds : List δ} (hbs : List.Forall₂ R as bs)
    (hcs : List.Forall₂ S as cs) (hds : List.Forall₂ T as ds)
    (h : ∀ a ∈ as, ∀ b c d, R a b → S a c → T a d → U a b c d) : Abreast U as bs cs ds := by
  induction hbs generalizing cs ds with
  | nil =>
    cases hcs
    cases hds
    exact .nil
  | cons hb _ ih =>
    cases hcs with
    | cons hc hcs =>
      cases hds with
      | cons hd hds =>
        exact .cons (h _ List.mem_cons_self _ _ _ hb hc hd)
          (ih hcs hds fun a ha => h a (List.mem_cons_of_mem _ ha))

namespace Layout

variable {r : Registry} {nest : Class Value → Except Error Document} {c : Class Value} {p : Property}
  {k : Classification} {l : Layout} {name : String}

theorem exists_of_scalar (hk : p.classification = some k) (hscalar : p.isRelationship = false) :
    ∃ l, ofClassification? k = some l := by
  match k with
  | .single e => exact ⟨_,rfl⟩
  | .array e => exact ⟨_,rfl⟩
  | .relationship rel =>
    rw [Property.isRelationship,hk] at hscalar
    cases hscalar

theorem inDocument_eq (hl : ofClassification? k = some l) {shape : FieldShape Document}
    (h : Document.Shaped r nest c p k shape) :
    (shape.typeText, shape.itemsText?, shape.nested?.isSome) = l.inDocument := by
  cases h with
  | scalar hs | scalars hs =>
    rw [ofClassification?,hs] at hl
    cases hl
    rfl
  | nested _ | nestedArray _ =>
    cases hl
    rfl
  | references _ => cases hl

theorem propertyOf_eq (hk : p.classification = some k) (hl : ofClassification? k = some l) {n : NodeProperty}
    (h : Graph.propertyOf name p = .ok n) :
    n.typeText = l.inGraph ∧ n.name = name ∧ n.enum = k.values? ∧ n.optional = p.optional ∧
      n.unique = (if p.isIdentifier then some true else p.unique) ∧ n.isIdentifier = p.isIdentifier := by
  rw [Graph.propertyOf,hk] at h
  cases k with
  | single e =>
    cases h
    cases hl
    refine ⟨?_,rfl,rfl,rfl,rfl,rfl⟩
    cases e <;> exact String.append_empty
  | array e =>
    cases h
    cases hl
    refine ⟨?_,rfl,rfl,rfl,rfl,rfl⟩
    cases e <;> rfl
  | relationship rel => cases hl

theorem columnOf_types (hk : p.classification = some k) (hl : ofClassification? k = some l) {c : Column}
    (h : Relational.columnOf name p = .ok c) : (c.type, c.elements) = l.inTable := by
  rw [Relational.columnOf_eq hk] at h
  obtain ⟨types,htypes,rfl⟩ := map_eq_ok.mp h
  match k with
  | .single e =>
    cases htypes
    cases hl
    cases e <;> rfl
  | .array e =>
    cases htypes
    cases hl
    cases e <;> rfl
  | .relationship rel => cases hl

end Layout

variable {r : Registry} {s : Settings} {c : Class Value} {d : Descriptor} {maxDepth : Option Int}

/-- The field of a property in a schema of its own. -/
def FieldOf (r : Registry) (s : Settings) (c : Class Value) (p : Property) (f : Field Document) : Prop :=
  ∃ nest k shape, p.classification = some k ∧ Document.Shaped r nest c p k shape ∧
    f = Document.fieldWith (if p.isIdentifier then s.documentIdField else p.key) p k shape

/-- The document schema of a class has a field for every property. -/
theorem Document.compile_fields {doc : Document} (hd : r.descriptor (.cls c) = .ok d)
    (h : compile r (.ok s) (.cls c) maxDepth 0 false = .ok doc) : List.Forall₂ (FieldOf r s c) d.properties doc.fields := by
  obtain ⟨limit,hlimit,_⟩ := bind_eq_ok.mp h
  have hlevels : levelsFrom 0 limit = limit + 1 := by
    rw [levelsFrom]
    omega
  rw [compile_expand hlimit,hlevels,expand_level] at h
  obtain ⟨d',hlevel⟩ := level_eq_ok.mp h
  cases hd.symm.trans hlevel.descriptor
  have hfields := hlevel.fields
  rw [keptProperties_top,List.forall₂_map_left_iff] at hfields
  refine hfields.imp fun p f hfield => ?_
  obtain ⟨k,shape,hk,hshape,hf⟩ := fieldOf_eq_ok.mp hfield
  exact ⟨_,k,shape,hk,hshape,hf⟩

theorem Graph.compile_properties {graph : Graph} (hd : r.descriptor (.cls c) = .ok d)
    (h : compile r (.ok s) (.cls c) = .ok graph) :
    ∃ node, graph.nodes = [node] ∧ List.Forall₂
      (fun p n => propertyOf (Renaming.ofIdentifier s.documentIdField s.graphIdField p) p = .ok n)
      (d.properties.filter (!·.isRelationship)) node.properties := by
  obtain ⟨_,hd',h⟩ := bind_eq_ok.mp h
  cases hd.symm.trans hd'
  obtain ⟨_,⟨⟩,h⟩ := bind_eq_ok.mp h
  obtain ⟨properties,hproperties,h⟩ := bind_eq_ok.mp h
  obtain ⟨edges,_,h⟩ := bind_eq_ok.mp h
  cases pure_eq_ok.mp h
  have hkept := mapM_eq_ok.mp hproperties
  rw [kept,List.forall₂_map_left_iff] at hkept
  exact ⟨_,rfl,hkept⟩

theorem Relational.compile_columns {table : Relational} (hd : r.descriptor (.cls c) = .ok d)
    (h : (compile r (.ok s) (.cls c) maxDepth 0).result = .ok table) : Compiled s d table := by
  rw [compile_class hd] at h
  cases hlimit : Settings.limit (.ok s) maxDepth with
  | error e =>
    rw [hlimit] at h
    cases h
  | ok limit =>
    rw [hlimit] at h
    exact ofDescriptor_compiled h

theorem carries {p : Property} (hmerge : r.merge c = .ok d) (hp : p ∈ d.properties) (hscalar : p.isRelationship = false)
    {f : Field Document} {n : NodeProperty} {column : Column} (hf : FieldOf r s c p f)
    (hn : Graph.propertyOf (Renaming.ofIdentifier s.documentIdField s.graphIdField p) p = .ok n)
    (hcolumn : Relational.columnOf (Relational.columnName s p) p = .ok column) : Carries s p f n column := by
  obtain ⟨nest,k,shape,hk,hshape,rfl⟩ := hf
  obtain ⟨l,hl⟩ := Layout.exists_of_scalar hk hscalar
  obtain ⟨ntype,nname,nenum,noptional,nunique,nid⟩ := Layout.propertyOf_eq hk hl hn
  obtain ⟨cname,cnullable,cunique,cprimary,cenum⟩ := Relational.columnOf_ok hcolumn
  rw [hk] at cenum
  have hunique : (if p.isIdentifier then some true else p.unique).getD false = column.unique := by
    rw [cunique,Property.isUnique]
    cases p.isIdentifier with
    | true => exact (Bool.or_true _).symm
    | false => exact (Bool.or_false _).symm
  exact {
    names := ⟨rfl,nname,cname⟩
    identifies := ⟨rfl,nid,cprimary⟩
    optional := ⟨rfl,noptional,cnullable⟩
    unique := ⟨hunique,by rw [nunique]; exact hunique,cunique⟩
    enum := ⟨cenum.symm,nenum.trans cenum.symm,fun vs hvs => by
      rw [cenum]
      exact Registry.merge_given hmerge hp hk hscalar hvs⟩
    layout := ⟨l,by rw [hk]; exact hl,Layout.inDocument_eq hl hshape,ntype,Layout.columnOf_types hk hl hcolumn⟩ }

/-- A class that all backends compile has, for each property that is no link and in the order of the properties, a
field, a property of its node and a column that carry the same. -/
theorem backends_agree {settings : Except Error Settings} {maxDepth' : Option Int} {doc : Document} {graph : Graph}
    {table : Relational} (hdocument : Document.compile r settings (.cls c) maxDepth 0 false = .ok doc)
    (hgraph : Graph.compile r settings (.cls c) = .ok graph)
    (htable : (Relational.compile r settings (.cls c) maxDepth' 0).result = .ok table) :
    ∃ s d node, settings = .ok s ∧ r.descriptor (.cls c) = .ok d ∧ graph.nodes = [node] ∧
      Abreast (Carries s) (d.properties.filter (!·.isRelationship))
        (doc.fields.filter (·.shape.target?.isNone)) node.properties table.columns := by
  obtain ⟨d,hd,_⟩ := bind_eq_ok.mp hgraph
  obtain ⟨s,rfl⟩ : ∃ s, settings = .ok s := by
    obtain ⟨_,_,h⟩ := bind_eq_ok.mp hgraph
    obtain ⟨s,hs,_⟩ := bind_eq_ok.mp h
    exact ⟨s,hs⟩
  have hfields := Document.compile_fields hd hdocument
  obtain ⟨node,hnode,hproperties⟩ := Graph.compile_properties hd hgraph
  have hcolumns := (Relational.compile_columns hd htable).columns
  -- Links have fields but no columns: leaving out references leaves out just those.
  have hscalars : List.Forall₂ (FieldOf r s c) (d.properties.filter (!·.isRelationship))
      (doc.fields.filter (·.shape.target?.isNone)) := by
    refine List.rel_filter ?_ hfields
    intro p f hf
    obtain ⟨nest,k,shape,hk,hshape,rfl⟩ := hf
    exact Bool.eq_iff_iff.mp (hshape.isNone_target hk)
  refine ⟨s,d,node,rfl,hd,hnode,abreast_of_forall₂ hscalars hproperties hcolumns fun p hp f n column hf hn hcolumn => ?_⟩
  obtain ⟨hmem,hscalar⟩ := List.mem_filter.mp hp
  exact carries (Registry.descriptor_registered hd) hmem (by simpa using hscalar) hf hn hcolumn

/-- A place, which is kept inline. -/
def place : Class Value := ⟨.defined "Place" 0 [.builtin .valueObject, .builtin .object], none⟩

/-- A ticket, which has a grade, labels and a place. -/
def ticket : Class Value := ⟨.defined "Ticket" 1 [.builtin .object], none⟩

/-- The schemas of tickets. -/
def tickets : Except Error (Registry × Document × Graph × Relational) := do
  let r ← ({} : Registry).registerProperty (.cls place) (.str "street") [("type", .type (.builtin .text))]
  let r ← r.registerProperty (.cls ticket) (.str "grade")
    [("type", .type (.builtin .text)), ("enum", .list [.str "A", .str "B"]), ("optional", .bool true)]
  let r ← r.registerProperty (.cls ticket) (.str "labels")
    [("type", .type (.generic .list [.builtin .text])), ("enum", .list [.str "new", .str "old"])]
  let r ← r.registerProperty (.cls ticket) (.str "place") [("type", .type (.cls place))]
  let doc ← Document.compile r (.ok Settings.defaults) (.cls ticket) none 0 false
  let graph ← Graph.compile r (.ok Settings.defaults) (.cls ticket)
  let table ← (Relational.compile r (.ok Settings.defaults) (.cls ticket) none 0).result
  return (r, doc, graph, table)

theorem backends_agree_tickets : ∃ r doc graph table d node, tickets = .ok (r, doc, graph, table) ∧
    r.descriptor (.cls ticket) = .ok d ∧ graph.nodes = [node] ∧
    Abreast (Carries Settings.defaults) (d.properties.filter (!·.isRelationship))
      (doc.fields.filter (·.shape.target?.isNone)) node.properties table.columns ∧
    doc.fields.map (·.enum.map List.length) = [none, some 2, some 2, none] := by
  have hok : (tickets.toOption.any fun (_, doc, _, _) =>
      doc.fields.map (·.enum.map List.length) == [none, some 2, some 2, none]) = true := by decide +kernel
  obtain ⟨⟨r,doc,graph,table⟩,htickets,henums⟩ := exists_ok_of_any hok
  obtain ⟨_,_,h⟩ := bind_eq_ok.mp htickets
  obtain ⟨_,_,h⟩ := bind_eq_ok.mp h
  obtain ⟨_,_,h⟩ := bind_eq_ok.mp h
  obtain ⟨r,_,h⟩ := bind_eq_ok.mp h
  obtain ⟨doc,hdoc,h⟩ := bind_eq_ok.mp h
  obtain ⟨graph,hgraph,h⟩ := bind_eq_ok.mp h
  obtain ⟨table,htable,h⟩ := bind_eq_ok.mp h
  cases pure_eq_ok.mp h
  obtain ⟨_,d,node,⟨⟩,hd,hnode,habreast⟩ := backends_agree hdoc hgraph htable
  exact ⟨r,doc,graph,table,d,node,htickets,hd,hnode,habreast,beq_iff_eq.mp henums⟩

end Trischema
