import Trischema.Proofs.Compiling.Completeness
import Trischema.Proofs.Compiling.Layouts
import Trischema.Proofs.Compiling.Naming

/-!
A graph schema divides the properties of a class. Those that are no links are the properties of its node, each as an
image of its own; the links are its edges, of which the first of each identity is kept. Adding one edge keeps what
makes them the first ones, and from that all of them are.
-/

namespace Trischema

namespace Graph

variable {r : Registry} {d : Descriptor} {s : Settings}

/-- Whether edges are the first of each identity among those that are declared, in the order in which these come. -/
structure KeepsFirsts (declared kept : List Edge) : Prop where
  distinct : (kept.map (·.identity)).Nodup
  first : ∀ e ∈ kept, declared.find? (·.identity == e.identity) = some e
  inOrder : kept.Pairwise fun e f =>
    declared.findIdx (·.identity == e.identity) < declared.findIdx (·.identity == f.identity)
  all : ∀ e ∈ declared, e.identity ∈ kept.map (·.identity)

theorem addEdge_cases (kept : List Edge) (e : Edge) :
    (e.identity ∈ kept.map (·.identity) ∧ addEdge kept e = kept) ∨
      (e.identity ∉ kept.map (·.identity) ∧ addEdge kept e = kept ++ [e]) := by
  have hany : kept.any (·.identity == e.identity) = true ↔ e.identity ∈ kept.map (·.identity) := by
    simp [List.any_eq_true,List.mem_map]
  by_cases h : e.identity ∈ kept.map (·.identity)
  · left
    exact ⟨h,by rw [addEdge,if_pos (hany.mpr h)]⟩
  · right
    exact ⟨h,by rw [addEdge,if_neg (mt hany.mp h)]⟩

/-- An edge that is found among the first ones is found in the same place when more are declared. -/
theorem KeepsFirsts.place {declared kept : List Edge} (h : KeepsFirsts declared kept) {e : Edge} (he : e ∈ kept) (more : List Edge) :
    (declared ++ more).findIdx (·.identity == e.identity) = declared.findIdx (·.identity == e.identity) ∧
      declared.findIdx (·.identity == e.identity) < declared.length := by
  have hfound : (declared.find? (·.identity == e.identity)).isSome = true := by simp [h.first e he]
  have hlt : declared.findIdx (·.identity == e.identity) < declared.length := by
    rw [List.findIdx_lt_length]
    simpa using hfound
  refine ⟨?_,hlt⟩
  rw [List.findIdx_append,if_pos hlt]

theorem KeepsFirsts.first_append {declared kept : List Edge} (h : KeepsFirsts declared kept) (more : List Edge) :
    ∀ f ∈ kept, (declared ++ more).find? (·.identity == f.identity) = some f := by
  intro f hf
  rw [List.find?_append,h.first f hf,Option.some_or]

theorem KeepsFirsts.inOrder_append {declared kept : List Edge} (h : KeepsFirsts declared kept) (more : List Edge) :
    kept.Pairwise fun f g =>
      (declared ++ more).findIdx (·.identity == f.identity) < (declared ++ more).findIdx (·.identity == g.identity) := by
  refine h.inOrder.imp_of_mem ?_
  intro f g hf hg hlt
  rw [(h.place hf more).1,(h.place hg more).1]
  exact hlt

theorem KeepsFirsts.append_known {declared kept : List Edge} (h : KeepsFirsts declared kept) {e : Edge}
    (hknown : e.identity ∈ kept.map (·.identity)) : KeepsFirsts (declared ++ [e]) kept := by
  refine ⟨h.distinct,h.first_append [e],h.inOrder_append [e],?_⟩
  intro f hf
  rcases List.mem_append.mp hf with hf | hf
  · exact h.all f hf
  · rw [List.mem_singleton.mp hf]
    exact hknown

theorem KeepsFirsts.append_new {declared kept : List Edge} (h : KeepsFirsts declared kept) {e : Edge}
    (hnew : e.identity ∉ kept.map (·.identity)) : KeepsFirsts (declared ++ [e]) (kept ++ [e]) := by
  -- no declared edge has the identity of the new one, so that it is found last
  have hnone : ∀ f ∈ declared, ¬(f.identity == e.identity) = true := by
    intro f hf hsame
    apply hnew
    rw [← beq_iff_eq.mp hsame]
    exact h.all f hf
  have hlast : (declared ++ [e]).findIdx (·.identity == e.identity) = declared.length := by
    have hlength : declared.findIdx (·.identity == e.identity) = declared.length := by
      rw [List.findIdx_eq_length]
      simpa using hnone
    rw [List.findIdx_append,if_neg (by omega)]
    simp
  refine ⟨?_,?_,?_,?_⟩
  · rw [List.map_append,List.map_singleton,← List.concat_eq_append]
    exact h.distinct.concat hnew
  · intro f hf
    rcases List.mem_append.mp hf with hf | hf
    · exact h.first_append [e] f hf
    · have hmiss : declared.find? (·.identity == e.identity) = none := by simpa using hnone
      rw [List.mem_singleton.mp hf,List.find?_append,hmiss]
      simp
  · rw [List.pairwise_append]
    refine ⟨h.inOrder_append [e],List.pairwise_singleton _ _,?_⟩
    intro f hf g hg
    rw [List.mem_singleton.mp hg,hlast,(h.place hf [e]).1]
    exact (h.place hf [e]).2
  · intro f hf
    rw [List.map_append,List.mem_append]
    rcases List.mem_append.mp hf with hf | hf
    · exact .inl (h.all f hf)
    · right
      rw [List.mem_singleton.mp hf]
      exact List.mem_singleton_self _

/-- One more declared edge is kept where it is the first of its identity. -/
theorem KeepsFirsts.step {declared kept : List Edge} (h : KeepsFirsts declared kept) (e : Edge) :
    KeepsFirsts (declared ++ [e]) (addEdge kept e) := by
  rcases addEdge_cases kept e with ⟨hknown,hadd⟩ | ⟨hnew,hadd⟩
  · rw [hadd]
    exact h.append_known hknown
  · rw [hadd]
    exact h.append_new hnew

/-- Adding declared edges one after another keeps the first of each identity. -/
theorem keepsFirsts_addEdges (declared : List Edge) : KeepsFirsts declared (declared.foldl addEdge []) := by
  induction declared using List.reverseRecOn with
  | nil => exact ⟨List.nodup_nil,by simp,List.Pairwise.nil,by simp⟩
  | append_singleton declared e ih =>
    rw [List.foldl_append]
    exact ih.step e

/-- The name of a property in the node of a class: an identifier that has the key of document identifiers is renamed. -/
def nodeName (s : Settings) (p : Property) : String :=
  if p.isIdentifier && p.key == s.documentIdField then s.graphIdField else p.key

/-- Whether a property of a node is the image of a property of its class. -/
structure Images (s : Settings) (p : Property) (n : NodeProperty) : Prop where
  name : n.name = nodeName s p
  typed : ∃ e, p.classification = some (if n.isArray then .array e else .single e) ∧
    n.scalar = e.scalar?.getD .object ∧ n.enum = e.values?
  unique : n.unique = if p.isIdentifier then some true else p.unique
  optional : n.optional = p.optional
  isIdentifier : n.isIdentifier = p.isIdentifier
  default : n.default = p.default

theorem images_of_propertyOf {p : Property} {n : NodeProperty} (h : propertyOf (nodeName s p) p = .ok n) : Images s p n := by
  rw [propertyOf] at h
  split at h
  · rename_i e he
    cases h
    exact ⟨rfl,⟨e,he,rfl,rfl⟩,rfl,rfl,rfl,rfl⟩
  · rename_i e he
    cases h
    exact ⟨rfl,⟨e,he,rfl,rfl⟩,rfl,rfl,rfl,rfl⟩
  · cases h

/-- Whether an edge is the one that a link of a class declares. It leads to the class that the target of the link is
resolved to, and copies the properties that the link lists under the names that they have in the node. -/
structure Draws (r : Registry) (d : Descriptor) (s : Settings) (p : Property) (rel : Relationship Value) (e : Edge) :
    Prop where
  link : p.relationship = some rel
  source : e.source = d.name
  target : ∃ c, r.resolve d.cls p.key rel = .ok c ∧ e.target = r.nameOf c
  type : e.type = rel.edgeType
  direction : e.direction = rel.direction
  key : e.key = p.key
  cardinality : e.cardinality = rel.cardinality
  copies : List.Forall₂ (fun key name => ∃ q ∈ d.properties, q.isRelationship = false ∧ q.key = key ∧ name = nodeName s q)
    rel.edgeProperties e.properties

/-- Whether a link can be an edge: it has a target, and lists keys of properties that are no links. -/
def IsDrawable (r : Registry) (d : Descriptor) (p : Property) : Prop :=
  ∃ rel c, p.relationship = some rel ∧ r.resolve d.cls p.key rel = .ok c ∧
    ∀ key ∈ rel.edgeProperties, ∃ q ∈ d.properties, q.isRelationship = false ∧ q.key = key

/-- The names under which a node has the properties of a class. -/
def nodeNames (d : Descriptor) (s : Settings) : Renaming := (kept d s).map fun (name, p) => (p.key, name)

theorem covers_iff (d : Descriptor) (s : Settings) (key : String) :
    (nodeNames d s).covers key = true ↔ ∃ q ∈ d.properties, q.isRelationship = false ∧ q.key = key := by
  rw [nodeNames,covers_kept]
  simp

/-- What a covered key is renamed to is the name of a property of the node. -/
theorem apply_nodeNames {key : String} (h : (nodeNames d s).covers key = true) :
    ∃ q ∈ d.properties, q.isRelationship = false ∧ q.key = key ∧ (nodeNames d s).apply key = nodeName s q := by
  rw [Renaming.covers,Option.isSome_iff_exists] at h
  obtain ⟨name,hname⟩ := h
  obtain ⟨entry,hentry,hsame⟩ := List.mem_map.mp (mem_of_lookup hname)
  obtain ⟨q,hq,rfl⟩ := List.mem_map.mp hentry
  obtain ⟨rfl,rfl⟩ := Prod.mk.inj hsame
  obtain ⟨hq,hplain⟩ := List.mem_filter.mp hq
  refine ⟨q,hq,by simpa using hplain,rfl,?_⟩
  rw [Renaming.apply,hname]
  rfl

theorem edgeOf_eq_ok {key : String} {rel : Relationship Value} {e : Edge} :
    edgeOf r d (nodeNames d s) key rel = .ok e ↔ ∃ c, r.resolve d.cls key rel = .ok c ∧
      (∀ name ∈ rel.edgeProperties, (nodeNames d s).covers name = true) ∧
      e = ⟨d.name, r.nameOf c, rel.edgeType, rel.direction, key, rel.cardinality,
        rel.edgeProperties.map (nodeNames d s).apply⟩ := by
  rw [edgeOf,bind_eq_ok]
  refine exists_congr fun c => and_congr_right fun _ => ?_
  have hempty : (!(rel.edgeProperties.filter (!(nodeNames d s).covers ·)).isEmpty) = true ↔
      ¬∀ name ∈ rel.edgeProperties, (nodeNames d s).covers name = true := by
    simp
  by_cases hcovered : ∀ name ∈ rel.edgeProperties, (nodeNames d s).covers name = true
  · have hnone := mt hempty.mp (not_not.mpr hcovered)
    dsimp only
    rw [if_neg hnone]
    constructor
    · intro h
      cases h
      exact ⟨hcovered,rfl⟩
    · rintro ⟨_,rfl⟩
      rfl
  · dsimp only
    rw [if_pos (hempty.mpr hcovered)]
    constructor
    · intro h
      cases h
    · rintro ⟨h,_⟩
      exact absurd h hcovered

/-- The edge of a link is drawn for it. -/
theorem draws_of_edgeOf {p : Property} {rel : Relationship Value} {e : Edge} (hrel : p.relationship = some rel)
    (h : edgeOf r d (nodeNames d s) p.key rel = .ok e) : Draws r d s p rel e := by
  obtain ⟨c,hc,hcovered,rfl⟩ := edgeOf_eq_ok.mp h
  refine ⟨hrel,rfl,⟨c,hc,rfl⟩,rfl,rfl,rfl,rfl,?_⟩
  rw [List.forall₂_map_right_iff,List.forall₂_same]
  intro name hname
  exact apply_nodeNames (hcovered name hname)

theorem isDrawable_iff {p : Property} {rel : Relationship Value} (hrel : p.relationship = some rel) (s : Settings) :
    IsDrawable r d p ↔ ∃ e, edgeOf r d (nodeNames d s) p.key rel = .ok e := by
  simp only [edgeOf_eq_ok,covers_iff]
  constructor
  · rintro ⟨rel',c,hrel',hc,hkeys⟩
    cases hrel.symm.trans hrel'
    exact ⟨_,c,hc,hkeys,rfl⟩
  · rintro ⟨_,c,hc,hkeys,rfl⟩
    exact ⟨rel,c,hrel,hc,hkeys⟩

/-- The links of a class are its relationship properties, in their order. -/
theorem links_forall₂ {c : Class Value} (hd : r.descriptor (.cls c) = .ok d) :
    List.Forall₂ (fun p link => p.relationship = some link.2 ∧ p.key = link.1)
      (d.properties.filter (·.isRelationship)) d.links := by
  have hlinks : ∀ p ∈ d.properties.filter (·.isRelationship), p.relationship.isSome = true := by
    intro p hp
    obtain ⟨hp,hlink⟩ := List.mem_filter.mp hp
    rw [← TableBinding.isRelationship_iff hd hp]
    exact hlink
  rw [Descriptor.links]
  generalize d.properties.filter (·.isRelationship) = ps at hlinks
  induction ps with
  | nil => exact .nil
  | cons p ps ih =>
    obtain ⟨hp,hps⟩ := List.forall_mem_cons.mp hlinks
    obtain ⟨rel,hrel⟩ := Option.isSome_iff_exists.mp hp
    rw [List.filterMap_cons_some (b := (p.key, rel)) (by simp [hrel])]
    exact .cons ⟨hrel,rfl⟩ (ih hps)

/-- What a graph schema is made of. -/
theorem compile_eq_ok {settings : Except Error Settings} {t : TypeExpr Value} {g : Graph} :
    compile r settings t = .ok g ↔ ∃ d s ns declared, r.descriptor t = .ok d ∧ settings = .ok s ∧
      List.Forall₂ (fun p n => propertyOf (nodeName s p) p = .ok n) (d.properties.filter (!·.isRelationship)) ns ∧
      List.Forall₂ (fun link e => edgeOf r d (nodeNames d s) link.1 link.2 = .ok e) d.links declared ∧
      g = ⟨[⟨d.name, ns, (nodeNames d s).groups d.together⟩], declared.foldl addEdge []⟩ := by
  have hkept (d : Descriptor) (s : Settings) (ns : List NodeProperty) :
      (kept d s).mapM (fun entry => propertyOf entry.1 entry.2) = .ok ns ↔
        List.Forall₂ (fun p n => propertyOf (nodeName s p) p = .ok n) (d.properties.filter (!·.isRelationship)) ns := by
    rw [mapM_eq_ok,kept,List.forall₂_map_left_iff]
    rfl
  constructor
  · intro h
    obtain ⟨d,hd,h⟩ := bind_eq_ok.mp h
    obtain ⟨s,hs,h⟩ := bind_eq_ok.mp h
    obtain ⟨ns,hns,h⟩ := bind_eq_ok.mp h
    obtain ⟨declared,hdeclared,h⟩ := bind_eq_ok.mp h
    exact ⟨d,s,ns,declared,hd,hs,(hkept d s ns).mp hns,mapM_eq_ok.mp hdeclared,(pure_eq_ok.mp h).symm⟩
  · rintro ⟨d,s,ns,declared,hd,hs,hns,hdeclared,rfl⟩
    refine bind_eq_ok.mpr ⟨d,hd,bind_eq_ok.mpr ⟨s,hs,?_⟩⟩
    refine bind_eq_ok.mpr ⟨ns,(hkept d s ns).mpr hns,bind_eq_ok.mpr ⟨declared,?_,rfl⟩⟩
    exact mapM_eq_ok.mpr hdeclared

theorem class_of_descriptor {t : TypeExpr Value} (hd : r.descriptor t = .ok d) : ∃ c, t = .cls c := by
  cases t with
  | cls c => exact ⟨c,rfl⟩
  | _ => cases hd

/-- Every property of a described class that is no link has an image. -/
theorem exists_images {c : Class Value} (hd : r.descriptor (.cls c) = .ok d) (s : Settings) :
    ∃ ns, List.Forall₂ (fun p n => propertyOf (nodeName s p) p = .ok n) (d.properties.filter (!·.isRelationship)) ns := by
  refine forall₂_of_forall ?_
  intro p hp
  obtain ⟨hp,hplain⟩ := List.mem_filter.mp hp
  obtain ⟨k,hk,_⟩ := Registry.merge_classified (Registry.descriptor_registered hd) hp
  exact propertyOf_ok hk (by simpa using hplain) (nodeName s p)

/-- Every drawable link has an edge, and a link that has one is drawable. -/
theorem edges_iff {c : Class Value} (hd : r.descriptor (.cls c) = .ok d) (s : Settings) :
    (∃ declared, List.Forall₂ (fun link e => edgeOf r d (nodeNames d s) link.1 link.2 = .ok e) d.links declared) ↔
      ∀ p ∈ d.properties, p.isRelationship = true → IsDrawable r d p := by
  have hlinks := links_forall₂ hd
  constructor
  · rintro ⟨declared,hdeclared⟩ p hp hlink
    obtain ⟨link,hmem,hrel,hkey⟩ := exists_right_of_forall₂ hlinks (List.mem_filter.mpr ⟨hp,hlink⟩)
    obtain ⟨e,_,he⟩ := exists_right_of_forall₂ hdeclared hmem
    rw [← hkey] at he
    exact (isDrawable_iff hrel s).mpr ⟨e,he⟩
  · intro hall
    refine forall₂_of_forall ?_
    intro link hmem
    obtain ⟨p,hp,hrel,hkey⟩ := exists_left_of_forall₂ hlinks hmem
    obtain ⟨hp,hlink⟩ := List.mem_filter.mp hp
    obtain ⟨e,he⟩ := (isDrawable_iff hrel s).mp (hall p hp hlink)
    rw [hkey] at he
    exact ⟨e,he⟩

/-- A class has a graph schema just where it is described and all its links are drawable, repeated ones too. The schema
has one node, whose properties are the images of those that are no links, and as its edges the first of each identity
among those of the links; these edges copy properties of the node. -/
theorem compile_divides (r : Registry) (settings : Except Error Settings) (t : TypeExpr Value) :
    ((∃ g, compile r settings t = .ok g) ↔ ∃ d s, r.descriptor t = .ok d ∧ settings = .ok s ∧
      ∀ p ∈ d.properties, p.isRelationship = true → IsDrawable r d p) ∧
    ∀ g, compile r settings t = .ok g → ∃ d s node declared, r.descriptor t = .ok d ∧ settings = .ok s ∧
      g.nodes = [node] ∧ node.label = d.name ∧
      List.Forall₂ (Images s) (d.properties.filter (!·.isRelationship)) node.properties ∧
      List.Forall₂ (fun p e => ∃ rel, Draws r d s p rel e) (d.properties.filter (·.isRelationship)) declared ∧
      KeepsFirsts declared g.edges ∧
      ∀ e ∈ g.edges, ∀ name ∈ e.properties, name ∈ node.propertyNames := by
  refine ⟨⟨?_,?_⟩,?_⟩
  · rintro ⟨g,hg⟩
    obtain ⟨d,s,ns,declared,hd,hs,_,hdeclared,_⟩ := compile_eq_ok.mp hg
    obtain ⟨c,rfl⟩ := class_of_descriptor hd
    exact ⟨d,s,hd,hs,(edges_iff hd s).mp ⟨declared,hdeclared⟩⟩
  · rintro ⟨d,s,hd,hs,hall⟩
    obtain ⟨c,rfl⟩ := class_of_descriptor hd
    obtain ⟨ns,hns⟩ := exists_images hd s
    obtain ⟨declared,hdeclared⟩ := (edges_iff hd s).mpr hall
    exact ⟨_,compile_eq_ok.mpr ⟨d,s,ns,declared,hd,hs,hns,hdeclared,rfl⟩⟩
  · intro g hg
    obtain ⟨d,s,ns,declared,hd,hs,hns,hdeclared,rfl⟩ := compile_eq_ok.mp hg
    obtain ⟨c,rfl⟩ := class_of_descriptor hd
    have hdraws : List.Forall₂ (fun p e => ∃ rel, Draws r d s p rel e) (d.properties.filter (·.isRelationship)) declared := by
      refine forall₂_comp (links_forall₂ hd) hdeclared ?_
      rintro p ⟨key,rel⟩ e ⟨hrel,rfl⟩ he
      exact ⟨rel,draws_of_edgeOf hrel he⟩
    refine ⟨d,s,_,declared,hd,hs,rfl,rfl,hns.imp fun _ _ => images_of_propertyOf,hdraws,keepsFirsts_addEdges declared,?_⟩
    intro e he name hname
    have hmem : e ∈ declared := List.mem_of_find?_eq_some ((keepsFirsts_addEdges declared).first e he)
    obtain ⟨p,_,rel,hdrawn⟩ := exists_left_of_forall₂ hdraws hmem
    obtain ⟨key,_,q,hq,hplain,_,rfl⟩ := exists_left_of_forall₂ hdrawn.copies hname
    obtain ⟨n,hn,himage⟩ := exists_right_of_forall₂ hns (List.mem_filter.mpr ⟨hq,by simpa using hplain⟩)
    rw [Node.propertyNames,← propertyOf_name himage]
    exact List.mem_map_of_mem hn

/-- A reader. -/
def reader : Class Value := ⟨.defined "Reader" 0 [.builtin .entity, .builtin .object], none⟩

/-- An article, which readers write, check and like. -/
def article : Class Value := ⟨.defined "Article" 1 [.builtin .entity, .builtin .object], none⟩

/-- The options of a link to readers that copies the title onto its edge. -/
def toReaders (edge : String) : Given := [("edge_type", .str edge), ("target", .str "Reader"),
  ("edge_properties", .list [.str "title"])]

/-- Articles with their graph. The second link has the edge type of the first. -/
def articles : Except Error (Registry × Graph) := do
  let r ← ({} : Registry).registerEntity (.cls reader) none none (.list [])
  let r ← r.registerProperty (.cls article) (.str "title") [("type", .type (.builtin .text))]
  let r ← r.registerRelationship (.cls article) (.str "author") (toReaders "BY")
  let r ← r.registerRelationship (.cls article) (.str "checker") (toReaders "BY")
  let r ← r.registerRelationship (.cls article) (.str "fans") (toReaders "LIKED_BY")
  return (r, ← compile r (.ok Settings.defaults) (.cls article))

theorem compile_divides_articles : ∃ r g d node declared, articles = .ok (r, g) ∧
    r.descriptor (.cls article) = .ok d ∧ g.nodes = [node] ∧
    List.Forall₂ (Images Settings.defaults) (d.properties.filter (!·.isRelationship)) node.properties ∧
    List.Forall₂ (fun p e => ∃ rel, Draws r d Settings.defaults p rel e) (d.properties.filter (·.isRelationship)) declared ∧
    KeepsFirsts declared g.edges ∧ declared.length = 3 ∧ g.edges.map (·.key) = ["author", "fans"] := by
  have hok : (articles.toOption.any fun (r, g) => g.edges.map (·.key) == ["author", "fans"] &&
      (r.descriptor (.cls article)).toOption.any fun d => (d.properties.filter (·.isRelationship)).length == 3) = true := by
    decide +kernel
  obtain ⟨⟨r,g⟩,harticles,hfound⟩ := exists_ok_of_any hok
  obtain ⟨hkeys,hlinks⟩ := Bool.and_eq_true_iff.mp hfound
  have hg : compile r (.ok Settings.defaults) (.cls article) = .ok g := by
    obtain ⟨_,_,h⟩ := bind_eq_ok.mp harticles
    obtain ⟨_,_,h⟩ := bind_eq_ok.mp h
    obtain ⟨_,_,h⟩ := bind_eq_ok.mp h
    obtain ⟨_,_,h⟩ := bind_eq_ok.mp h
    obtain ⟨r,_,h⟩ := bind_eq_ok.mp h
    obtain ⟨g,hg,h⟩ := bind_eq_ok.mp h
    cases pure_eq_ok.mp h
    exact hg
  obtain ⟨d,_,node,declared,hd,⟨⟩,hnode,_,himages,hdraws,hfirsts,_⟩ := (compile_divides r _ _).2 g hg
  have hlength : (d.properties.filter (·.isRelationship)).length = 3 := by
    rw [hd] at hlinks
    exact beq_iff_eq.mp hlinks
  exact ⟨r,g,d,node,declared,harticles,hd,hnode,himages,hdraws,hfirsts,hdraws.length_eq.symm.trans hlength,
    beq_iff_eq.mp hkeys⟩

end Graph

end Trischema
