import Trischema.Graph.Compiling
import Trischema.Proofs.Registry.LeftOut

/-!
Graph schemas of classes that are alike: their nodes are exported alike, and their edges are the same.
-/

namespace Trischema

namespace Graph

variable {r r' : Registry} {c c' : Class Value} {p p' : Property} {d d' : Descriptor}

/-- The entry of a property in the export of its node. -/
def entry (p : NodeProperty) : String × Value := (p.name, p.toRecord)

theorem propertyOf_alike (h : r.PropertyAlike r' c c' p p') (name : String) :
    (propertyOf name p).map entry = (propertyOf name p').map entry := by
  obtain ⟨k,k',hk,hk',hclass⟩ := h.classification
  have hproperty {e e' : Element} (helement : r.ElementSame r' e e') (isArray : Bool) :
      entry ⟨name, e.scalar?.getD .object, isArray, (if p.isIdentifier then some true else p.unique), p.optional,
        p.isIdentifier, e.values?, p.default⟩ =
      entry ⟨name, e'.scalar?.getD .object, isArray, (if p'.isIdentifier then some true else p'.unique), p'.optional,
        p'.isIdentifier, e'.values?, p'.default⟩ := by
    simp only [entry,NodeProperty.toRecord,NodeProperty.typeText,helement.parts,h.unique,h.optional,h.isIdentifier,
      h.defaultEntry]
  rw [propertyOf,propertyOf,hk,hk']
  cases hclass with
  | single helement => exact congrArg Except.ok (hproperty helement false)
  | array helement => exact congrArg Except.ok (hproperty helement true)
  | relationship hlink => rfl

theorem edgeOf_alike (h : r.ClassAlike r' d d') {names : Renaming} {key : String} {rel rel' : Relationship Value}
    (hlink : r.LinkAlike r' d.cls d'.cls key rel rel') : edgeOf r d names key rel = edgeOf r' d' names key rel' := by
  obtain ⟨e,e',he,he',hname⟩ := hlink.told.target
  rw [edgeOf,edgeOf,he,he']
  change (if _ then _ else _) = if _ then _ else _
  rw [h.name,hname,hlink.told.edgeType,hlink.direction,hlink.cardinality,hlink.same.edgeProperties]

/-- Graph schemas of classes in one place are exported alike. -/
theorem compile_alike (h : r.Alike r') (hplaced : (c, c') ∈ r.sortedClasses.zip r'.sortedClasses)
    (settings : Except Error Settings) :
    compile r settings (.cls c) >>= toRecord = compile r' settings (.cls c') >>= toRecord := by
  obtain ⟨d,d',hd,hd',_,_,halike⟩ := h.descriptor hplaced
  rw [compile,compile,hd,hd']
  cases settings with
  | error e => rfl
  | ok s =>
    have hkept : r.KeptAlike r' d.cls d'.cls (kept d s) (kept d' s) := halike.kept s.documentIdField s.graphIdField
    have hnames := hkept.renaming
    have hproperties : ((kept d s).mapM fun e => propertyOf e.1 e.2).map (List.map entry) =
        ((kept d' s).mapM fun e => propertyOf e.1 e.2).map (List.map entry) := by
      refine mapM_map_eq (hkept.imp ?_)
      rintro ⟨name,p⟩ ⟨_,p'⟩ ⟨rfl,hp⟩
      exact propertyOf_alike hp name
    have hedges (names : Renaming) : (d.links.mapM fun link => edgeOf r d names link.1 link.2) =
        d'.links.mapM fun link => edgeOf r' d' names link.1 link.2 := by
      refine mapM_eq_of_forall₂ (halike.links.imp ?_)
      rintro ⟨key,rel⟩ ⟨_,rel'⟩ ⟨rfl,hlink⟩
      exact edgeOf_alike halike hlink
    change ((kept d s).mapM (fun e => propertyOf e.1 e.2) >>= _) >>= toRecord =
      ((kept d' s).mapM (fun e => propertyOf e.1 e.2) >>= _) >>= toRecord
    rw [bind_assoc,bind_assoc]
    refine bind_eq_of_map_eq hproperties fun properties properties' hsame => ?_
    rw [hnames,hedges,bind_assoc,bind_assoc]
    refine bind_congr fun edges => ?_
    have hnode : Node.toRecord ⟨d.name, properties, Renaming.groups ((kept d' s).map fun e => (e.2.key, e.1)) d.together⟩ =
        Node.toRecord ⟨d'.name, properties', Renaming.groups ((kept d' s).map fun e => (e.2.key, e.1)) d'.together⟩ := by
      have hentries : (properties.map fun p => (p.name, p.toRecord)) = properties'.map fun p => (p.name, p.toRecord) := hsame
      rw [Node.toRecord,Node.toRecord,halike.name,halike.together,hentries]
    simp only [pure_bind,toRecord,List.map_cons,List.map_nil,hnode]

end Graph

end Trischema
