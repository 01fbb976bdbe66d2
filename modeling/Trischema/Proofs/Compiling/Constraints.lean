import Trischema.Proofs.Compiling.Edges

/-!
The names of constraints and indexes. A name joins the names of the properties of a unique key with underscores, so that
two keys get one name exactly when the underscores between their names and in them leave the same words. A constraint whose
name is taken is not created.
-/

namespace Trischema

section Words

variable {names names' : List String}

/-- The words that underscores leave of names that are joined by them; no names leave one empty word. -/
def words : List String → List (List Char)
  | [] => [[]]
  | name :: names => (name :: names).flatMap fun n => n.toList.splitOn '_'

/-- Names that are each followed by the direction of an index. -/
def directed (names : List String) : List String := names.flatMap fun n => [n, "1"]

/-- Whether a unique key has properties, and no underscore in their names. -/
def IsPlain (names : List String) : Prop := names ≠ [] ∧ ∀ name ∈ names, '_' ∉ name.toList

theorem splitOn_joined (names : List String) : ("_".intercalate names).toList.splitOn '_' = words names := by
  cases names with
  | nil =>
    rw [String.intercalate_nil]
    rfl
  | cons name names =>
    rw [words]
    induction names generalizing name with
    | nil => simp
    | cons next names ih =>
      rw [String.intercalate_cons_cons,String.toList_append,String.toList_append,List.append_assoc]
      change (name.toList ++ '_' :: ("_".intercalate (next :: names)).toList).splitOn '_' = _
      rw [List.splitOn_append_cons_self,ih next]
      rfl

/-- Names are joined to one text exactly when they have the same words. -/
theorem joined_eq_iff : "_".intercalate names = "_".intercalate names' ↔ words names = words names' := by
  constructor
  · intro h
    rw [← splitOn_joined,← splitOn_joined,h]
  · intro h
    have hback (names : List String) : "_".intercalate names = String.ofList (['_'].intercalate (words names)) := by
      rw [← splitOn_joined,List.intercalate_splitOn,String.ofList_toList]
    rw [hback,hback,h]

theorem joined_directed (names : List String) :
    "_".intercalate (names.map (· ++ "_1")) = "_".intercalate (directed names) := by
  have hone : ∀ name, "_".intercalate (directed [name]) = name ++ "_1" := by
    intro name
    change "_".intercalate [name, "1"] = _
    rw [String.intercalate_cons_cons,String.intercalate_singleton,String.append_assoc]
    rfl
  cases names with
  | nil => rfl
  | cons name names =>
    -- The mark between two names is there only where another name follows.
    induction names generalizing name with
    | nil => rw [hone,List.map_singleton,String.intercalate_singleton]
    | cons next names ih =>
      have happend : "_".intercalate (directed [name] ++ directed (next :: names)) =
          "_".intercalate (directed [name]) ++ "_" ++ "_".intercalate (directed (next :: names)) :=
        String.intercalate_append_of_ne_nil (List.cons_ne_nil _ _) (List.cons_ne_nil _ _)
      change _ = "_".intercalate (directed [name] ++ directed (next :: names))
      rw [happend,hone,← ih next]
      exact String.intercalate_cons_cons

theorem words_plain (h : IsPlain names) : words names = names.map String.toList := by
  obtain ⟨hne,hfree⟩ := h
  obtain ⟨name,rest,rfl⟩ := List.exists_cons_of_ne_nil hne
  rw [words,List.map_eq_flatMap]
  exact List.flatMap_congr fun n hn => List.splitOn_eq_singleton (hfree n hn)

theorem isPlain_directed (h : IsPlain names) : IsPlain (directed names) := by
  obtain ⟨hne,hfree⟩ := h
  obtain ⟨name,rest,rfl⟩ := List.exists_cons_of_ne_nil hne
  refine ⟨List.cons_ne_nil _ _,fun n hn => ?_⟩
  obtain ⟨m,hm,hn⟩ := List.mem_flatMap.mp hn
  rcases List.mem_pair.mp hn with rfl | rfl
  · exact hfree n hm
  · decide

theorem words_nodup {keys : List (List String)} (h : ∀ names ∈ keys, IsPlain names) :
    (keys.map words).Nodup ↔ keys.Nodup := by
  refine ⟨List.Nodup.of_map _,List.Nodup.map_on fun names hnames names' hnames' hwords => ?_⟩
  rw [words_plain (h names hnames),words_plain (h names' hnames')] at hwords
  exact List.map_injective_iff.mpr (fun _ _ => String.toList_inj.mp) hwords

theorem directed_injective (h : directed names = directed names') : names = names' := by
  induction names generalizing names' with
  | nil =>
    cases names' with
    | nil => rfl
    | cons name' names' => cases h
  | cons name names ih =>
    cases names' with
    | nil => cases h
    | cons name' names' =>
      obtain ⟨rfl,hrest⟩ := List.cons.inj h
      rw [ih (List.cons.inj hrest).2]

theorem words_directed_nodup {keys : List (List String)} (h : ∀ names ∈ keys, IsPlain names) :
    (keys.map fun names => words (directed names)).Nodup ↔ keys.Nodup := by
  have hplain : ∀ names ∈ keys.map directed, IsPlain names := by
    intro _ hdirected
    obtain ⟨names,hnames,rfl⟩ := List.mem_map.mp hdirected
    exact isPlain_directed (h names hnames)
  have hdirected := words_nodup hplain
  rw [List.map_map,List.nodup_map_iff fun _ _ => directed_injective] at hdirected
  exact hdirected

end Words

/-- What is kept of two lists that go together goes together. -/
theorem map_filter_of_forall₂ {α β γ : Type} {R : α → β → Prop} {keep : α → Bool} {keep' : β → Bool} {f : α → γ}
    {g : β → γ} {as : List α} {bs : List β} (h : List.Forall₂ R as bs) (hkeep : ∀ a b, R a b → keep a = keep' b)
    (hmap : ∀ a b, R a b → keep a = true → f a = g b) : (as.filter keep).map f = (bs.filter keep').map g := by
  induction h with
  | nil => rfl
  | cons hab _ ih =>
    rw [List.filter_cons,List.filter_cons,← hkeep _ _ hab]
    split
    · rename_i hkept
      rw [List.map_cons,List.map_cons,hmap _ _ hab hkept,ih]
    · exact ih

/-- A unique key of a node: one property, or several together. -/
inductive UniqueKey
  | single (name : String)
  | together (names : List String)
  deriving DecidableEq, Repr

namespace UniqueKey

/-- What a constraint demands of the nodes. -/
def requirement : UniqueKey → String
  | single name => "n." ++ name ++ " IS UNIQUE"
  | together names => "(" ++ ", ".intercalate (names.map ("n." ++ ·)) ++ ") IS NODE KEY"

end UniqueKey

namespace Node

variable {n : Node} {k k' : UniqueKey}

def uniqueKeys (n : Node) : List UniqueKey :=
  (n.properties.filter fun p => p.unique.getD false).map (fun p => .single p.name) ++ n.together.map .together

/-- The name of the constraint of a key. -/
def keyName (n : Node) : UniqueKey → String
  | .single name => n.constraintName [name] "_unique"
  | .together names => n.constraintName names "_key"

theorem constraints_eq (n : Node) :
    n.constraints = n.uniqueKeys.map fun k => n.constraint (n.keyName k) k.requirement := by
  rw [constraints,uniqueKeys,List.map_append,List.map_map,List.map_map]
  rfl

theorem keyName_single {name name' : String} : n.keyName (.single name) = n.keyName (.single name') ↔ name = name' := by
  rw [keyName,keyName,constraintName,constraintName,String.append_left_inj,String.append_right_inj,
    String.intercalate_singleton,String.intercalate_singleton]

theorem keyName_together {names names' : List String} :
    n.keyName (.together names) = n.keyName (.together names') ↔ words names = words names' := by
  rw [keyName,keyName,constraintName,constraintName,String.append_left_inj,String.append_right_inj,joined_eq_iff]

/-- The last letter of a name tells whether its key is of one property. -/
theorem keyName_apart {name : String} {names : List String} :
    n.keyName (.single name) ≠ n.keyName (.together names) := by
  intro h
  have hlast := congrArg (fun s : String => s.toList.getLast?) h
  simp only [keyName,constraintName,String.toList_append,List.getLast?_append] at hlast
  cases hlast

/-- The constraint names of a node are distinct exactly when so are the names of its unique properties and the words of its
composite keys. -/
theorem keyNames_nodup : (n.uniqueKeys.map n.keyName).Nodup ↔
    ((n.properties.filter fun p => p.unique.getD false).map (·.name)).Nodup ∧ (n.together.map words).Nodup := by
  have hsingle : ((n.properties.filter fun p => p.unique.getD false).map fun p => n.keyName (.single p.name)).Nodup ↔
      ((n.properties.filter fun p => p.unique.getD false).map (·.name)).Nodup := by
    simp only [List.Nodup,List.pairwise_map,ne_eq,keyName_single]
  have htogether : (n.together.map fun names => n.keyName (.together names)).Nodup ↔ (n.together.map words).Nodup := by
    simp only [List.Nodup,List.pairwise_map,ne_eq,keyName_together]
  rw [← hsingle,← htogether,uniqueKeys,List.map_append,List.map_map,List.map_map,List.nodup_append]
  refine and_congr_right fun _ => and_iff_left_of_imp fun _ => ?_
  intro name hname name' hname'
  obtain ⟨p,_,rfl⟩ := List.mem_map.mp hname
  obtain ⟨names,_,rfl⟩ := List.mem_map.mp hname'
  exact keyName_apart

theorem uniqueKeys_nodup : n.uniqueKeys.Nodup ↔
    ((n.properties.filter fun p => p.unique.getD false).map (·.name)).Nodup ∧ n.together.Nodup := by
  rw [uniqueKeys,List.nodup_append,List.nodup_map_iff fun _ _ => UniqueKey.together.inj]
  have hsingle : ((n.properties.filter fun p => p.unique.getD false).map fun p => UniqueKey.single p.name).Nodup ↔
      ((n.properties.filter fun p => p.unique.getD false).map (·.name)).Nodup := by
    simp only [List.Nodup,List.pairwise_map,ne_eq,UniqueKey.single.injEq]
  rw [hsingle]
  refine and_congr_right fun _ => and_iff_left_of_imp fun _ => ?_
  intro k hk k' hk'
  obtain ⟨p,_,rfl⟩ := List.mem_map.mp hk
  obtain ⟨names,_,rfl⟩ := List.mem_map.mp hk'
  exact UniqueKey.noConfusion

/-- Creates the constraint of a key unless there is one with its name. -/
def establish (n : Node) (held : List UniqueKey) (k : UniqueKey) : List UniqueKey :=
  if n.keyName k ∈ held.map n.keyName then held else held ++ [k]

/-- The keys whose constraints there are once all statements have been run, each of which leaves alone a constraint that has
its name. -/
def established (n : Node) : List UniqueKey := n.uniqueKeys.foldl n.establish []

theorem establish_nodup {held : List UniqueKey} (h : (held.map n.keyName).Nodup) (k : UniqueKey) :
    ((n.establish held k).map n.keyName).Nodup := by
  rw [establish]
  split
  · exact h
  · rename_i hnew
    rw [List.map_append,List.map_singleton]
    exact List.nodup_append.mpr ⟨h,List.nodup_singleton _,fun name hname name' hname' hsame =>
      hnew (by rw [← List.mem_singleton.mp hname',← hsame]; exact hname)⟩

theorem established_nodup (n : Node) : (n.established.map n.keyName).Nodup :=
  List.foldlRecOn (motive := fun held : List UniqueKey => (held.map n.keyName).Nodup) _ _ List.nodup_nil
    fun _ h k _ => establish_nodup h k

theorem foldl_establish (held keys : List UniqueKey) (h : ((held ++ keys).map n.keyName).Nodup) :
    keys.foldl n.establish held = held ++ keys := by
  -- What is held grows with every key; it is the names of both together that stay distinct.
  induction keys generalizing held with
  | nil => exact (List.append_nil _).symm
  | cons k keys ih =>
    have hnew : n.keyName k ∉ held.map n.keyName := by
      rw [List.map_append,List.map_cons,List.nodup_middle,List.nodup_cons] at h
      exact fun hmem => h.1 (List.mem_append_left _ hmem)
    rw [List.foldl_cons,establish,if_neg hnew,ih _ (by rwa [List.append_assoc]),List.append_assoc]
    rfl

/-- All constraints of a node are created exactly when their names are distinct. -/
theorem established_eq_iff : n.established = n.uniqueKeys ↔ (n.uniqueKeys.map n.keyName).Nodup := by
  constructor
  · intro h
    rw [← h]
    exact established_nodup n
  · exact foldl_establish [] n.uniqueKeys

end Node

namespace Document

variable {doc : Document}

/-- The name of an index over some fields. -/
def indexName (names : List String) : String := "_".intercalate (names.map (· ++ "_1"))

/-- The name that the record of an index has. -/
def nameIn? : Value → Option Value
  | .mapping es => Value.entry? (.str "name") es
  | _ => none

theorem nameIn?_indexOf (names : List String) : nameIn? (indexOf names) = some (.str (indexName names)) := by
  rfl

theorem indexName_eq_iff {names names' : List String} :
    indexName names = indexName names' ↔ words (directed names) = words (directed names') := by
  rw [indexName,indexName,joined_directed,joined_directed,joined_eq_iff]

/-- The index names of a schema are distinct exactly when its unique keys are joined to different names. -/
theorem indexNames_nodup : (doc.indexKeys.map indexName).Nodup ↔
    (doc.indexKeys.map fun names => words (directed names)).Nodup := by
  simp only [List.Nodup,List.pairwise_map,ne_eq,indexName_eq_iff]

/-- The names under which a schema has the properties of a class. -/
def fieldNamesOf (d : Descriptor) (s : Settings) (embedded : Bool) : Renaming :=
  (keptProperties d (keepsId d embedded) s.documentIdField).map fun (name, p) => (p.key, name)

variable {r : Registry} {s : Settings} {c : Class Value} {d : Descriptor} {maxDepth : Option Int} {depth : Int}
  {embedded : Bool}

/-- The unique keys of a schema that is no placeholder are those of its class, but for the identifier itself. -/
theorem compile_indexKeys (hd : r.descriptor (.cls c) = .ok d)
    (h : compile r (.ok s) (.cls c) maxDepth depth embedded = .ok doc) (hwhole : doc.isPlaceholder = false) :
    doc.indexKeys = ((d.properties.filter fun p => p.isUnique && !p.isIdentifier).map fun p => [p.key]) ++
      (fieldNamesOf d s embedded).groups d.together := by
  obtain ⟨limit,hlimit,_⟩ := bind_eq_ok.mp h
  rw [compile_expand hlimit] at h
  cases hlevels : levelsFrom depth limit with
  | zero =>
    rw [hlevels] at h
    cases h
    cases hwhole
  | succ levels =>
    rw [hlevels,expand_level] at h
    obtain ⟨d',hlevel⟩ := level_eq_ok.mp h
    cases hd.symm.trans hlevel.descriptor
    rw [indexKeys,hlevel.together]
    refine congrArg (· ++ _) ?_
    have hfields := hlevel.fields
    rw [keptProperties,List.forall₂_map_left_iff] at hfields
    have hkept : (((d.properties.filter fun p => keepsId d embedded || !p.isIdentifier).filter
        fun p => p.isUnique && !p.isIdentifier).map fun p => [p.key]) =
          (doc.fields.filter fun f => f.unique.getD false && !f.isIdentifier).map fun f => [f.name] := by
      refine map_filter_of_forall₂ hfields (fun p f hf => ?_) fun p f hf hkept => ?_
      · obtain ⟨k,shape,_,_,rfl⟩ := fieldOf_eq_ok.mp hf
        dsimp only [fieldWith,Property.isUnique]
        cases p.isIdentifier <;> simp
      · obtain ⟨k,shape,_,_,rfl⟩ := fieldOf_eq_ok.mp hf
        have hother : p.isIdentifier = false := by simpa using (Bool.and_eq_true_iff.mp hkept).2
        rw [fieldWith,hother]
        rfl
    rw [← hkept,List.filter_filter]
    refine congrArg _ (List.filter_congr fun p _ => ?_)
    cases p.isIdentifier <;> simp

end Document

/-- The unique properties of the node of a class have the names of its unique properties that are no links. -/
theorem Graph.unique_names {d : Descriptor} {s : Settings} {ns : List NodeProperty}
    (h : List.Forall₂ (fun p n => propertyOf (nodeName s p) p = .ok n) (d.properties.filter (!·.isRelationship)) ns) :
    (ns.filter fun n => n.unique.getD false).map (·.name) =
      (d.properties.filter fun p => p.isUnique && !p.isRelationship).map
        (nameWith (·.key == s.documentIdField) s.graphIdField) := by
  rw [← List.filter_filter]
  refine (map_filter_of_forall₂ h (fun p n hn => ?_) fun p n hn _ => (propertyOf_name hn).symm).symm
  have himage := images_of_propertyOf hn
  rw [himage.unique,Property.isUnique]
  cases p.isIdentifier <;> simp

variable {r : Registry} {c : Class Value} {d : Descriptor}

/-- When the names of the unique keys of a class are distinct. Those of the constraints of its node are when no identifier
is renamed to the key of another unique property and no two composite keys have the same words; otherwise a constraint is
not created. Those of the indexes of a schema are when no two keys, with the direction after each name, have the same words.
Of keys without underscores in their names, different ones have different names. -/
theorem key_names_distinct (hd : r.descriptor (.cls c) = .ok d) (s : Settings) :
    (∀ graph, Graph.compile r (.ok s) (.cls c) = .ok graph → ∃ node, graph.nodes = [node] ∧
      graph.constraints = (node.uniqueKeys.map fun k => node.constraint (node.keyName k) k.requirement) ∧
      node.together = (Graph.nodeNames d s).groups d.together ∧
      ((node.uniqueKeys.map node.keyName).Nodup ↔
        ¬Meets (·.key == s.documentIdField) s.graphIdField
          (d.properties.filter fun p => p.isUnique && !p.isRelationship) ∧
        (node.together.map words).Nodup) ∧
      (node.established = node.uniqueKeys ↔ (node.uniqueKeys.map node.keyName).Nodup) ∧
      ((∀ names ∈ node.together, IsPlain names) →
        ((node.uniqueKeys.map node.keyName).Nodup ↔ node.uniqueKeys.Nodup))) ∧
    ∀ maxDepth depth embedded doc, Document.compile r (.ok s) (.cls c) maxDepth depth embedded = .ok doc →
      doc.indexes.map Document.nameIn? = doc.indexKeys.map (fun names => some (.str (Document.indexName names))) ∧
      (doc.isPlaceholder = false → doc.indexKeys =
        ((d.properties.filter fun p => p.isUnique && !p.isIdentifier).map fun p => [p.key]) ++
          (Document.fieldNamesOf d s embedded).groups d.together) ∧
      ((doc.indexKeys.map Document.indexName).Nodup ↔ (doc.indexKeys.map fun names => words (directed names)).Nodup) ∧
      ((∀ names ∈ doc.indexKeys, IsPlain names) →
        ((doc.indexKeys.map Document.indexName).Nodup ↔ doc.indexKeys.Nodup)) := by
  refine ⟨fun graph hgraph => ?_,fun maxDepth depth embedded doc hdoc => ?_⟩
  · obtain ⟨d',s',ns,declared,hd',hs,hns,_,rfl⟩ := Graph.compile_eq_ok.mp hgraph
    cases hd.symm.trans hd'
    cases hs
    refine ⟨_,rfl,(List.flatMap_singleton _ _).trans (Node.constraints_eq _),rfl,?_,Node.established_eq_iff,fun hplain => ?_⟩
    · rw [Node.keyNames_nodup,Graph.unique_names hns,Registry.descriptor_names hd]
    · rw [Node.keyNames_nodup,Node.uniqueKeys_nodup,words_nodup hplain]
  · refine ⟨?_,Document.compile_indexKeys hd hdoc,Document.indexNames_nodup,fun hplain => ?_⟩
    · rw [Document.indexes,List.map_map]
      exact List.map_congr_left fun names _ => Document.nameIn?_indexOf names
    · rw [Document.indexNames_nodup,words_directed_nodup hplain]

/-- A seat of a theatre. -/
def theatreSeat : Class Value := ⟨.defined "Seat" 0 [.builtin .object], none⟩

/-- The schemas of seats that have properties under some keys, with composite keys over them. -/
def theatreSeats (keys : List String) (together : List (List String)) :
    Except Error (Registry × Descriptor × Graph × Document) := do
  let r ← keys.foldlM (fun r key => r.registerProperty (.cls theatreSeat) (.str key) [("type", .type (.builtin .text))])
    ({} : Registry)
  let r ← r.registerEntity (.cls theatreSeat) none none (.list (together.map .texts))
  let d ← r.descriptor (.cls theatreSeat)
  let graph ← Graph.compile r (.ok Settings.defaults) (.cls theatreSeat)
  let doc ← Document.compile r (.ok Settings.defaults) (.cls theatreSeat) none 0 false
  return (r, d, graph, doc)

theorem theatreSeats_ok {keys : List String} {together : List (List String)} {r : Registry} {d : Descriptor} {graph : Graph}
    {doc : Document} (h : theatreSeats keys together = .ok (r, d, graph, doc)) :
    r.descriptor (.cls theatreSeat) = .ok d ∧ Graph.compile r (.ok Settings.defaults) (.cls theatreSeat) = .ok graph ∧
      Document.compile r (.ok Settings.defaults) (.cls theatreSeat) none 0 false = .ok doc := by
  obtain ⟨_,_,h⟩ := bind_eq_ok.mp h
  obtain ⟨r',_,h⟩ := bind_eq_ok.mp h
  obtain ⟨d',hd,h⟩ := bind_eq_ok.mp h
  obtain ⟨graph',hgraph,h⟩ := bind_eq_ok.mp h
  obtain ⟨doc',hdoc,h⟩ := bind_eq_ok.mp h
  cases pure_eq_ok.mp h
  exact ⟨hd,hgraph,hdoc⟩

/-- Seats that have a row and a side in either order have constraints and indexes of different names. -/
theorem key_names_distinct_seats : ∃ r d graph doc node,
    theatreSeats ["row", "side"] [["row", "side"], ["side", "row"]] = .ok (r, d, graph, doc) ∧
    r.descriptor (.cls theatreSeat) = .ok d ∧ graph.nodes = [node] ∧
    node.uniqueKeys = [.single "id", .together ["row", "side"], .together ["side", "row"]] ∧
    (node.uniqueKeys.map node.keyName).Nodup ∧ node.established = node.uniqueKeys ∧
    doc.indexKeys = [["row", "side"], ["side", "row"]] ∧ (doc.indexKeys.map Document.indexName).Nodup := by
  have hok : ((theatreSeats ["row", "side"] [["row", "side"], ["side", "row"]]).toOption.any fun (_, _, graph, doc) =>
      graph.nodes.map Node.uniqueKeys == [[.single "id", .together ["row", "side"], .together ["side", "row"]]] &&
        graph.nodes.map (·.together) == [[["row", "side"], ["side", "row"]]] &&
        doc.indexKeys == [["row", "side"], ["side", "row"]]) = true := by
    decide +kernel
  obtain ⟨⟨r,d,graph,doc⟩,hseats,hkeys⟩ := exists_ok_of_any hok
  simp only [Bool.and_eq_true,beq_iff_eq] at hkeys
  obtain ⟨⟨hunique,htogether⟩,hindexes⟩ := hkeys
  obtain ⟨hd,hgraph,hdoc⟩ := theatreSeats_ok hseats
  obtain ⟨hnodes,hdocs⟩ := key_names_distinct hd Settings.defaults
  obtain ⟨node,hnode,_,_,_,hcreated,hplain⟩ := hnodes graph hgraph
  obtain ⟨_,_,_,hindexed⟩ := hdocs none 0 false doc hdoc
  rw [hnode,List.map_singleton,List.singleton_inj] at hunique htogether
  have hfree : ∀ names ∈ [["row", "side"], ["side", "row"]], IsPlain names := by
    intro names hnames
    rw [List.mem_pair] at hnames
    rcases hnames with rfl | rfl <;> exact ⟨List.cons_ne_nil _ _,by decide⟩
  have hnames : (node.uniqueKeys.map node.keyName).Nodup := by
    refine (hplain (by rw [htogether]; exact hfree)).mpr ?_
    rw [hunique]
    decide
  have hindexNames : (doc.indexKeys.map Document.indexName).Nodup := by
    refine (hindexed (by rw [hindexes]; exact hfree)).mpr ?_
    rw [hindexes]
    decide
  exact ⟨r,d,graph,doc,node,hseats,hd,hnode,hunique,hnames,hcreated.mpr hnames,hindexes,hindexNames⟩

/-- The keys of a seat are different, and two of its constraints have one name, of which the second is not created; and so
have two of its indexes. -/
theorem key_names_shared :
    (∃ made node, theatreSeats ["row", "row_no", "side", "no_side"] [["row", "no_side"], ["row_no", "side"]] = .ok made ∧
      made.2.2.1.nodes = [node] ∧ node.uniqueKeys.Nodup ∧
      node.uniqueKeys.map node.keyName = ["Seat_id_unique", "Seat_row_no_side_key", "Seat_row_no_side_key"] ∧
      node.established = [.single "id", .together ["row", "no_side"]]) ∧
    ∃ made, theatreSeats ["row", "side", "row_1_side"] [["row", "side"], ["row_1_side"]] = .ok made ∧
      made.2.2.2.indexKeys.Nodup ∧
      made.2.2.2.indexKeys.map Document.indexName = ["row_1_side_1", "row_1_side_1"] := by
  have hnodes : ((theatreSeats ["row", "row_no", "side", "no_side"]
      [["row", "no_side"], ["row_no", "side"]]).toOption.any fun made => made.2.2.1.nodes.length == 1 &&
      made.2.2.1.nodes.all fun node => decide node.uniqueKeys.Nodup &&
        node.uniqueKeys.map node.keyName == ["Seat_id_unique", "Seat_row_no_side_key", "Seat_row_no_side_key"] &&
        node.established == [.single "id", .together ["row", "no_side"]]) = true := by
    decide +kernel
  have hindexes : ((theatreSeats ["row", "side", "row_1_side"]
      [["row", "side"], ["row_1_side"]]).toOption.any fun made => decide made.2.2.2.indexKeys.Nodup &&
      made.2.2.2.indexKeys.map Document.indexName == ["row_1_side_1", "row_1_side_1"]) = true := by
    decide +kernel
  constructor
  · obtain ⟨made,hmade,h⟩ := exists_ok_of_any hnodes
    rw [Bool.and_eq_true,beq_iff_eq,List.length_eq_one_iff] at h
    obtain ⟨⟨node,hnode⟩,h⟩ := h
    simp only [hnode,List.all_cons,List.all_nil,Bool.and_true,Bool.and_eq_true,decide_eq_true_eq,beq_iff_eq] at h
    exact ⟨made,node,hmade,hnode,h.1.1,h.1.2,h.2⟩
  · obtain ⟨made,hmade,h⟩ := exists_ok_of_any hindexes
    rw [Bool.and_eq_true,decide_eq_true_eq,beq_iff_eq] at h
    exact ⟨made,hmade,h⟩

end Trischema
