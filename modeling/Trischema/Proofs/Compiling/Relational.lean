import Trischema.Proofs.Registry.LeftOut
import Trischema.Relational.Compiling

/-!
Relational schemas of classes that are alike: their columns are exported alike, and their relations are the same.
-/

namespace Trischema

namespace Relational

variable {r r' : Registry} {c c' : Class Value} {p p' : Property} {d d' : Descriptor}

/-- The entry of a column in the export of its table. -/
def entry (c : Column) : String × Value := (c.name, c.toRecord)

/-- The type of the column of a property, and that of its elements. -/
def typesOf : Classification → Except Error (ColumnType × Option ColumnType)
  | .single e => .ok (e.scalar?.elim .document .ofScalar, none)
  | .array e => .ok (e.scalar?.elim (.document, none) fun s => (.array, some (.ofScalar s)))
  | .relationship _ => .error (.failure .kind)

/-- How the engine makes the values of a column. -/
def generatedOf (isIdentifier : Bool) (type : ColumnType) : Option String :=
  if isIdentifier && type == .text then some "uuid" else none

theorem columnOf_eq {k : Classification} (hk : p.classification = some k) (name : String) :
    columnOf name p = (typesOf k).map fun (type, elements) =>
      ⟨name, type, p.optional, p.isUnique, p.isIdentifier, k.values?,
        if (generatedOf p.isIdentifier type).isSome then none else p.default, generatedOf p.isIdentifier type, elements⟩ := by
  rw [columnOf,hk]
  match k with
  | .single e => cases e <;> rfl
  | .array e => cases e <;> rfl
  | .relationship _ => rfl

theorem typesOf_alike {key : String} {k k' : Classification} (h : r.ClassificationAlike r' c c' key k k') :
    typesOf k = typesOf k' := by
  cases h with
  | single h => rw [typesOf,typesOf,h.parts.1]
  | array h => rw [typesOf,typesOf,h.parts.1]
  | relationship h => rfl

theorem columnOf_alike (h : r.PropertyAlike r' c c' p p') (name : String) :
    (columnOf name p).map entry = (columnOf name p').map entry := by
  obtain ⟨k,k',hk,hk',hclass⟩ := h.classification
  have hunique : p.isUnique = p'.isUnique := by rw [Property.isUnique,Property.isUnique,h.unique,h.isIdentifier]
  rw [columnOf_eq hk,columnOf_eq hk',← typesOf_alike hclass]
  cases typesOf k with
  | error e => rfl
  | ok types =>
    obtain ⟨type,elements⟩ := types
    refine congrArg Except.ok ?_
    rw [← h.isIdentifier]
    have hdefault (generated : Option String) :
        optionalEntry "default" Value.rendered (if generated.isSome then none else p.default) =
          optionalEntry "default" Value.rendered (if generated.isSome then none else p'.default) := by
      cases generated with
      | none => exact h.defaultEntry
      | some _ => rfl
    simp only [entry,Column.toRecord,hclass.values?,h.optional,hunique,hdefault]

theorem relationOf_alike {key : String} {rel rel' : Relationship Value} (h : r.LinkAlike r' c c' key rel rel')
    (hsome : rel.cardinality.isSome = true) (kind : Choice Cardinality Value) :
    relationOf r c key rel kind = relationOf r' c' key rel' kind := by
  obtain ⟨e,e',he,he',hname⟩ := h.told.target
  obtain ⟨hinverse,hcascade,heager,hcolumn,htable⟩ := h.same.joined hsome
  rw [relationOf,relationOf,he,he']
  change Except.ok _ = Except.ok _
  rw [hname,hinverse,hcascade,heager,hcolumn,htable]

theorem relationsOf_alike {links links' : List (String × Relationship Value)} (h : r.LinksAlike r' c c' links links') :
    (relationsOf r c links).result = (relationsOf r' c' links').result := by
  induction h with
  | nil => rfl
  | @cons link link' links links' hlink _ ih =>
    obtain ⟨key,rel⟩ := link
    obtain ⟨_,rel'⟩ := link'
    obtain ⟨rfl,hlink⟩ := hlink
    have hcardinality := hlink.cardinality
    rw [relationsOf,relationsOf,← hcardinality]
    cases hkind : rel.cardinality with
    | none => exact ih
    | some kind =>
      have hrelation := relationOf_alike hlink (by rw [hkind]; rfl) kind
      dsimp only at hrelation ⊢
      rw [← hrelation]
      cases relationOf r c key rel kind with
      | error e => rfl
      | ok relation => exact congrArg (Except.map (relation :: ·)) ih

theorem compile_class (hd : r.descriptor (.cls c) = .ok d) (settings : Except Error Settings) (maxDepth : Option Int) :
    compile r settings (.cls c) maxDepth 0 =
      match Settings.limit settings maxDepth, settings with
      | .error e, _ | .ok _, .error e => .fail e
      | .ok _, .ok s => ofDescriptor r s d := by
  unfold compile
  cases Settings.limit settings maxDepth with
  | error e => rfl
  | ok limit =>
    have hwithin : ¬ (0 : Int) > limit := by omega
    cases settings <;> simp [TypeExpr.isAbsent,hwithin,hd]

/-- A table is the placeholder, past the limit, or that of a descriptor. -/
theorem compile_cases {settings : Except Error Settings} {maxDepth : Option Int} {depth : Int} {t : Relational}
    (h : (compile r settings (.cls c) maxDepth depth).result = .ok t) :
    (∃ limit : Nat, depth > limit ∧ t = placeholder) ∨
      ∃ d s, r.descriptor (.cls c) = .ok d ∧ settings = .ok s ∧ (ofDescriptor r s d).result = .ok t := by
  unfold compile at h
  cases hlimit : Settings.limit settings maxDepth with
  | error e =>
    rw [hlimit] at h
    cases h
  | ok limit =>
    simp only [hlimit,TypeExpr.isAbsent,Bool.false_eq_true,if_false] at h
    by_cases hpast : depth > limit
    · rw [if_pos hpast] at h
      obtain ⟨_,_,rfl⟩ := map_eq_ok.mp (show (TypeExpr.cls c).requireName.map (fun _ => placeholder) = .ok t from h)
      exact .inl ⟨limit,hpast,rfl⟩
    · rw [if_neg hpast] at h
      cases hd : r.descriptor (.cls c) with
      | error e =>
        rw [hd] at h
        cases h
      | ok d =>
        cases settings with
        | error e =>
          rw [hd] at h
          cases h
        | ok s =>
          rw [hd] at h
          exact .inr ⟨d,s,rfl,rfl,h⟩

/-- Relational schemas of classes in one place are exported alike. -/
theorem compile_alike (h : r.Alike r') (hplaced : (c, c') ∈ r.sortedClasses.zip r'.sortedClasses)
    (settings : Except Error Settings) (maxDepth : Option Int) :
    (compile r settings (.cls c) maxDepth 0).result >>= toRecord =
      (compile r' settings (.cls c') maxDepth 0).result >>= toRecord := by
  obtain ⟨d,d',hd,hd',_,_,halike⟩ := h.descriptor hplaced
  rw [compile_class hd,compile_class hd']
  cases Settings.limit settings maxDepth with
  | error e => rfl
  | ok limit =>
    cases settings with
    | error e => rfl
    | ok s =>
      have hkept : r.KeptAlike r' d.cls d'.cls (kept d s) (kept d' s) := halike.kept s.documentIdField s.relationalIdField
      have hcolumns : ((kept d s).mapM fun (name, p) => columnOf name p).map (List.map entry) =
          ((kept d' s).mapM fun (name, p) => columnOf name p).map (List.map entry) := by
        refine mapM_map_eq (hkept.imp ?_)
        rintro ⟨name,p⟩ ⟨_,p'⟩ ⟨rfl,hp⟩
        exact columnOf_alike hp name
      change ((relationsOf r d.cls d.links).result >>= _) >>= toRecord =
        ((relationsOf r' d'.cls d'.links).result >>= _) >>= toRecord
      rw [relationsOf_alike halike.links,bind_assoc,bind_assoc]
      refine bind_congr fun relations => ?_
      rw [bind_assoc,bind_assoc]
      refine bind_eq_of_map_eq hcolumns fun columns columns' hsame => ?_
      have hentries : (columns.map fun c => (c.name, c.toRecord)) = columns'.map fun c => (c.name, c.toRecord) := hsame
      simp only [pure_bind,toRecord,halike.name,halike.together,hkept.renaming,hentries]

end Relational

end Trischema
