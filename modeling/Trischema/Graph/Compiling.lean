import Trischema.Graph.Basic
import Trischema.Property.Renaming
import Trischema.Registry.Export
import Trischema.Settings

/-!
Compiling classes to graph schemas. Properties become properties of the node, relationships become edges;
of several edges with one identity only the first is kept. Nothing is expanded, so there is no limit.
-/

namespace Trischema

namespace Graph

/-- The node property of a property that is no relationship. -/
def propertyOf (name : String) (p : Property) : Except Error NodeProperty := do
  let (element, isArray) ← match p.classification with
    | some (.single e) => Except.ok (e, false)
    | some (.array e) => .ok (e, true)
    | _ => .error (.failure .kind)
  return {
    name
    scalar := element.scalar?.getD .object
    isArray
    unique := if p.isIdentifier then some true else p.unique
    optional := p.optional
    isIdentifier := p.isIdentifier
    enum := element.values?
    default := p.default }

/-- The edge that a relationship of a class declares. It may copy only properties of the node. -/
def edgeOf (r : Registry) (d : Descriptor) (names : Renaming) (key : String) (rel : Relationship Value) :
    Except Error Edge := do
  let target ← r.resolve d.cls key rel
  let unknown := rel.edgeProperties.filter (!names.covers ·)
  if !unknown.isEmpty then
    .error (.definition (.unknownEdgeProperties d.name key unknown) ⟨some d.name, some key⟩)
  return {
    source := d.name
    target := r.nameOf target
    type := rel.edgeType
    direction := rel.direction
    key
    cardinality := rel.cardinality
    properties := rel.edgeProperties.map names.apply }

/-- Adds an edge unless there is one with its identity. -/
def addEdge (edges : List Edge) (e : Edge) : List Edge :=
  if edges.any (·.identity == e.identity) then edges else edges ++ [e]

/-- The properties that are no relationships, with their names. -/
def kept (d : Descriptor) (s : Settings) : List (String × Property) :=
  (d.properties.filter (!·.isRelationship)).map fun p =>
    (Renaming.ofIdentifier s.documentIdField s.graphIdField p, p)

/-- Compiles a class to a graph schema. -/
def compile (r : Registry) (settings : Except Error Settings) (cls : TypeExpr Value) : Except Error Graph := do
  let d ← r.descriptor cls
  let s ← settings
  let kept := kept d s
  let names : Renaming := kept.map fun (name, p) => (p.key, name)
  let properties ← kept.mapM fun (name, p) => propertyOf name p
  let edges ← d.links.mapM fun (key, rel) => edgeOf r d names key rel
  return {
    nodes := [{ label := d.name, properties, together := names.groups d.together }]
    edges := edges.foldl addEdge [] }

end Graph

end Trischema
