import Trischema.Proofs.Compiling.Document
import Trischema.Proofs.Compiling.Graph
import Trischema.Proofs.Compiling.Relational
import Trischema.Proofs.Registry.Contents

/-!
What a fingerprint says of the registry it was computed from: which entities there are, and what they compile to
as far as the export tells it.
-/

namespace Trischema

namespace Artifact

variable {r r' : Registry} {c c' : Class Value}

/-- Classes in one place of registries that are alike have artifacts that are exported alike. -/
theorem compile_alike (h : r.Alike r') (hplaced : (c, c') ∈ r.sortedClasses.zip r'.sortedClasses)
    (settings : Except Error Settings) (maxDepth : Option Int) (backend : Backend) :
    (compile r settings (.cls c) maxDepth backend).result >>= toRecord =
      (compile r' settings (.cls c') maxDepth backend).result >>= toRecord := by
  have hexport {α : Type} (x : Except Error α) (artifact : α → Artifact) :
      x.map artifact >>= toRecord = x >>= fun a => (artifact a).toRecord := by
    cases x <;> rfl
  have hplain (x : Except Error Document) : (x >>= fun d => (document d).toRecord) = x.map Document.toRecord := by
    cases x <;> rfl
  cases backend with
  | document =>
    have hdocument := (hplain _).trans ((Document.compile_alike h hplaced settings maxDepth).trans (hplain _).symm)
    exact (hexport _ document).trans (hdocument.trans (hexport _ document).symm)
  | graph =>
    have hgraph := Graph.compile_alike h hplaced settings
    exact (hexport _ graph).trans (hgraph.trans (hexport _ graph).symm)
  | relational =>
    have hrelational := Relational.compile_alike h hplaced settings maxDepth
    exact (hexport _ relational).trans (hrelational.trans (hexport _ relational).symm)

end Artifact

namespace Registry

variable {r r' frozen frozen' : Registry}

/-- What the class of a name compiles to for the backend of a name, as it is exported. -/
def compiled (r : Registry) (settings : Except Error Settings) (name backend : String) (maxDepth : Option Int) :
    Except Error Value := do
  let c ← r.entity name
  (Artifact.compileNamed r settings (.cls c) maxDepth backend).result >>= Artifact.toRecord

theorem Alike.compiled (h : r.Alike r') (settings : Except Error Settings) (name backend : String)
    (maxDepth : Option Int) : r.compiled settings name backend maxDepth = r'.compiled settings name backend maxDepth := by
  rw [Registry.compiled,Registry.compiled]
  rcases entity_of_told h.told name with ⟨hnone,hnone'⟩ | ⟨c,c',hc,hc',hplaced⟩
  · rw [hnone,hnone']
    change Except.error _ = Except.error _
    rfl
  · rw [hc,hc']
    change (Artifact.compileNamed r settings (.cls c) maxDepth backend).result >>= _ =
      (Artifact.compileNamed r' settings (.cls c') maxDepth backend).result >>= _
    rw [Artifact.compileNamed,Artifact.compileNamed]
    cases Backend.ofName? backend with
    | none => rfl
    | some b => exact Artifact.compile_alike h hplaced settings maxDepth b

theorem withFingerprint_compiled (r : Registry) (f : Option String) (settings : Except Error Settings)
    (name backend : String) (maxDepth : Option Int) :
    (r.withFingerprint f).compiled settings name backend maxDepth = r.compiled settings name backend maxDepth := by
  simp only [compiled,entity,withFingerprint_lookup?,Artifact.compileNamed]
  cases Backend.ofName? backend with
  | none => rfl
  | some b => simp only [Artifact.compile_withFingerprint]

theorem withFingerprint_entityNames (r : Registry) (f : Option String) :
    (r.withFingerprint f).entityNames = r.entityNames := rfl

theorem entityNames_of_told (h : List.Forall₂ (ToldAlike r r') r.sortedClasses r'.sortedClasses) :
    r.entityNames = r'.entityNames :=
  map_eq_of_forall₂ h fun _ _ => ToldAlike.nameOf

/-- Registries that are frozen under one fingerprint have entities of the same names, where the digest tells their
canonical texts apart. These entities compile alike for every backend, unless what the export leaves out of them
differs. -/
theorem compiled_of_fingerprint {fingerprint : String} (h : r.freeze = .ok (fingerprint, frozen))
    (h' : r'.freeze = .ok (fingerprint, frozen'))
    (hdigest : ∀ text text', r.canonicalText = .ok text → r'.canonicalText = .ok text' →
      Sha256.hexDigest text = Sha256.hexDigest text' → text = text') :
    frozen.entityNames = frozen'.entityNames ∧
      (r.LeavesOutSame r' → ∀ settings name backend maxDepth,
        frozen.compiled settings name backend maxDepth = frozen'.compiled settings name backend maxDepth) := by
  obtain ⟨_,hcomputed,rfl⟩ := freeze_eq_ok.mp h
  obtain ⟨_,hcomputed',rfl⟩ := freeze_eq_ok.mp h'
  obtain ⟨text,htext,rfl⟩ := computeFingerprint_eq_ok.mp hcomputed
  obtain ⟨text',htext',hsame⟩ := computeFingerprint_eq_ok.mp hcomputed'
  have heq := hdigest text text' htext htext' (String.append_right_inj _ |>.mp hsame)
  rw [← heq] at htext'
  have htold := told_of_canonicalText htext htext'
  rw [withFingerprint_entityNames,withFingerprint_entityNames]
  refine ⟨entityNames_of_told htold,fun hleft settings name backend maxDepth => ?_⟩
  rw [withFingerprint_compiled,withFingerprint_compiled]
  exact Alike.compiled ⟨htold,hleft⟩ settings name backend maxDepth

/-- A seat, which has a next one. -/
def seat : Class Value := ⟨.defined "Seat" 0 [.builtin .object], none⟩

/-- What declaring the next seat as a link through a column leaves of a registry. -/
def seatsThrough (column : String) (r : Registry) : Except Error Registry :=
  r.registerRelationship (.cls seat) (.str "next") [("edge_type", .str "NEXT"), ("target", .type (.cls seat)),
    ("cardinality", .str "many-to-one"), ("owner", .bool true), ("join_columns", .list [.str column])]

/-- The link through a column. -/
def nextSeat (column : String) : Relationship Value where
  edgeType := "NEXT"
  target := .cls seat
  direction := .known .outgoing
  cardinality := some (.known .manyToOne)
  owner := true
  inverse := .null
  joinColumns := [column]
  joinTable := .null
  cascade := .flag false
  eager := false
  edgeProperties := []

/-- Seats with their links, and what was said about them as a whole. -/
def seats (entities : List (Class Value × Registration)) (column : String) : Registry where
  entities := entities
  declarations := [(seat, [("next", { relationship := some (nextSeat column) })])]

def seatDescriptor (column : String) : Descriptor where
  cls := seat
  name := "Seat"
  properties := [
    { key := "id", type := .builtin .identifier, isIdentifier := true, default := some (.callable .generateId),
      classification := some (.single .identifier), synthetic := true },
    { key := "next", relationship := some (nextSeat column), classification := some (.relationship (nextSeat column)) }]
  embedded := false
  together := []

/-- The export of seats, which has no columns. -/
def seatExport : Value :=
  .record [("name", .str "Seat"), ("embedded", .bool false), ("properties", .list [
    .record [("key", .str "id"), ("type", .str "UniqueIdentifier"), ("kind", .str "wrapped_identifier"),
      ("is_identifier", .bool true), ("default", .str "factory:generate_id")],
    .record [("key", .str "next"), ("type", .str "None"), ("kind", .str "relationship"), ("relationship", .record [
      ("edge_type", .str "NEXT"), ("direction", .str "OUTGOING"), ("cardinality", .str "many-to-one"),
      ("owner", .bool true), ("target", .str "Seat")])]])]

/-- The table of seats, as it is exported. -/
def seatTable (column : String) : Value :=
  .record [("name", .str "Seat"),
    ("columns", .record [("id", .record [("type", .str "varchar"), ("unique", .bool true), ("primary", .bool true),
      ("generated", .str "uuid")])]),
    ("relations", .record [("next", .record [("type", .str "many-to-one"), ("target", .str "Seat"),
      ("inverse_side", .null), ("cascade", .bool false), ("eager", .bool false),
      ("join_column", .record [("name", .str column)])])])]

section Seats

variable {entities : List (Class Value × Registration)} {column : String}

theorem seats_merge (h : entities = [] ∨ entities = [(seat, {})]) :
    (seats entities column).merge seat = .ok (seatDescriptor column) := by
  rcases h with rfl | rfl <;> with_unfolding_all rfl

theorem seats_sortedClasses (h : entities = [] ∨ entities = [(seat, {})]) :
    (seats entities column).sortedClasses = [seat] := by
  rcases h with rfl | rfl <;> exact List.mergeSort_singleton _

theorem seats_toRecord (h : entities = [] ∨ entities = [(seat, {})]) :
    (seats entities column).toRecord = .ok (.record [("entities", .list [seatExport])]) := by
  have hexport : (seats entities column).exportClass seat = .ok seatExport := by
    rw [exportClass,seats_merge h]
    rcases h with rfl | rfl <;> rfl
  rw [toRecord,seats_sortedClasses h,List.mapM_cons,hexport]
  rfl

/-- Seats through whatever column have one export, which has a canonical text. -/
theorem exists_seats_freeze : ∃ text, ∀ entities column, entities = [] ∨ entities = [(seat, {})] →
    (seats entities column).canonicalText = .ok text ∧
      (seats entities column).freeze = .ok ("sha256:" ++ Sha256.hexDigest text,
        (seats entities column).withFingerprint (some ("sha256:" ++ Sha256.hexDigest text))) := by
  have hstr (s : String) : ∃ x, Json.ofValue .asText (.str s) = .ok x := ⟨_,rfl⟩
  have hbool (b : Bool) : ∃ x, Json.ofValue .asText (.bool b) = .ok x := ⟨_,rfl⟩
  have hdocument : ∃ x, Json.ofValue .asText (.record [("entities", .list [seatExport])]) = .ok x := by
    refine Json.ofValue_record_ok (List.forall_mem_singleton.mpr (Json.ofValue_list_ok ?_))
    refine List.forall_mem_singleton.mpr (Json.ofValue_record_ok ?_)
    simp only [List.mem_cons,List.not_mem_nil,or_false,forall_eq_or_imp,forall_eq]
    refine ⟨hstr _,hbool _,Json.ofValue_list_ok ?_⟩
    simp only [List.mem_cons,List.not_mem_nil,or_false,forall_eq_or_imp,forall_eq]
    refine ⟨Json.ofValue_record_ok ?_,Json.ofValue_record_ok ?_⟩
    · simp only [List.mem_cons,List.not_mem_nil,or_false,forall_eq_or_imp,forall_eq]
      exact ⟨hstr _,hstr _,hstr _,hbool _,hstr _⟩
    · simp only [List.mem_cons,List.not_mem_nil,or_false,forall_eq_or_imp,forall_eq]
      refine ⟨hstr _,hstr _,hstr _,Json.ofValue_record_ok ?_⟩
      simp only [List.mem_cons,List.not_mem_nil,or_false,forall_eq_or_imp,forall_eq]
      exact ⟨hstr _,hstr _,hstr _,hbool _,hstr _⟩
  obtain ⟨x,hx⟩ := hdocument
  have hcanonical (entities column) (h : entities = [] ∨ entities = [(seat, {})]) :
      (seats entities column).canonicalText = .ok (x.render .compact) := by
    rw [canonicalText,seats_toRecord h]
    exact congrArg (Except.map (Json.render .compact)) hx
  refine ⟨x.render .compact,fun entities column h => ⟨hcanonical entities column h,?_⟩⟩
  exact freeze_eq_ok.mpr ⟨rfl,computeFingerprint_eq_ok.mpr ⟨_,hcanonical entities column h,rfl⟩,rfl⟩

theorem seats_compiled : (seats [] column).compiled (.ok Settings.defaults) "Seat" "relational" none =
    .ok (seatTable column) := by
  have hd : (seats [] column).descriptor (.cls seat) = .ok (seatDescriptor column) := seats_merge (.inl rfl)
  have hcompile := Relational.compile_class hd (.ok Settings.defaults) none
  rw [compiled]
  change (Artifact.compile (seats [] column) (.ok Settings.defaults) (.cls seat) none .relational).result >>= _ = _
  rw [Artifact.compile,hcompile]
  rfl

/-- Seats are exported alike whether or not they are marked as part of the model. -/
theorem compiled_of_fingerprint_marked : ∃ r r' fingerprint frozen frozen',
    seatsThrough "a" {} = .ok r ∧
    (({} : Registry).registerEntity (.cls seat) none none (.list []) >>= seatsThrough "a") = .ok r' ∧
    r.freeze = .ok (fingerprint, frozen) ∧ r'.freeze = .ok (fingerprint, frozen') ∧ r.LeavesOutSame r' ∧
    frozen.entityNames = frozen'.entityNames ∧
    frozen.compiled (.ok Settings.defaults) "Seat" "document" none =
      frozen'.compiled (.ok Settings.defaults) "Seat" "document" none := by
  obtain ⟨text,hfreeze⟩ := exists_seats_freeze
  have hbare := hfreeze [] "a" (.inl rfl)
  have hmarked := hfreeze [(seat, {})] "a" (.inr rfl)
  have hleft : (seats [] "a").LeavesOutSame (seats [(seat, {})] "a") := by
    intro c c' d d' hplaced hd hd' p p' hp
    rw [seats_sortedClasses (.inl rfl),seats_sortedClasses (.inr rfl)] at hplaced
    obtain ⟨rfl,rfl⟩ := Prod.mk.inj (List.mem_singleton.mp hplaced)
    cases (seats_merge (.inl rfl)).symm.trans hd
    cases (seats_merge (.inr rfl)).symm.trans hd'
    simp only [seatDescriptor,List.zip_cons_cons,List.zip_nil_right,List.mem_cons,List.not_mem_nil,or_false,
      Prod.mk.injEq] at hp
    rcases hp with ⟨rfl,rfl⟩ | ⟨rfl,rfl⟩ <;> refine propertySame_self fun e he => ?_
    · simp only [Option.some.injEq,Classification.single.injEq,reduceCtorEq,or_false] at he
      rw [← he]
      rfl
    · simp at he
  have hsame := compiled_of_fingerprint hbare.2 hmarked.2 fun text text' htext htext' _ => by
    cases hbare.1.symm.trans htext
    cases hmarked.1.symm.trans htext'
    rfl
  exact ⟨_,_,_,_,_,rfl,rfl,hbare.2,hmarked.2,hleft,hsame.1,hsame.2 hleft _ _ _ _⟩

/-- Seats that are linked through different columns have one canonical text and one fingerprint, and compile to
different tables. -/
theorem compiled_of_fingerprint_joined : ∃ r r' text fingerprint frozen frozen',
    seatsThrough "a" {} = .ok r ∧ seatsThrough "b" {} = .ok r' ∧
    r.canonicalText = .ok text ∧ r'.canonicalText = .ok text ∧
    r.freeze = .ok (fingerprint, frozen) ∧ r'.freeze = .ok (fingerprint, frozen') ∧
    frozen.compiled (.ok Settings.defaults) "Seat" "relational" none ≠
      frozen'.compiled (.ok Settings.defaults) "Seat" "relational" none := by
  obtain ⟨text,hfreeze⟩ := exists_seats_freeze
  obtain ⟨htext,hfrozen⟩ := hfreeze [] "a" (.inl rfl)
  obtain ⟨htext',hfrozen'⟩ := hfreeze [] "b" (.inl rfl)
  refine ⟨_,_,text,_,_,_,rfl,rfl,htext,htext',hfrozen,hfrozen',?_⟩
  rw [withFingerprint_compiled,withFingerprint_compiled,seats_compiled,seats_compiled]
  simp [seatTable,Value.record]

end Seats

end Registry

end Trischema
