import Trischema.Registry.Caching

/-!
Registration, write by write. A call reads and checks its arguments, asks whether the registry is frozen, and writes to
the tables, one write after another; a check that fails ends the call, and what was written before it stays.
-/

namespace Trischema

namespace Options

/-- Options that are given as a value, with those that are given by name over them. -/
def overlaid (options : Value) (named : Given) : Except Error (List (Value × Value)) :=
  if options.truthy then
    match options with
    | .mapping es => .ok (named.foldl (fun es (name, v) => Value.setEntry es (.str name) v) es)
    | _ => .error (.failure .kind)
  else .ok named.entries

/-- The relationship that is taken as it is, or built from its options. -/
def builtLink (cls : TypeExpr Value) (key options : Value) (named : Given) : Except Error (Relationship Value) :=
  match options with
  | .relationship relationship => .ok relationship
  | options => do
    Relationship.ofEntries cls.ownName (key.text?.getD key.display) (← overlaid options named)

/-- The link among the options of a property, where they hold one. -/
def link? : Value → Option Value
  | .mapping es => (Given.ofEntries es).lookup "relationship"
  | _ => none

/-- Whether options that hold a link hold nothing else. -/
def linkAlone : Value → Bool
  | .mapping es =>
    ((Given.ofEntries es).lookup "relationship").isNone || es.all fun (k, _) => k.word? == some "relationship"
  | _ => true

end Options

namespace Serving

def write (f : Registry → Registry) : Serving Unit := modify fun s => { s with registry := f s.registry }

/-- Fails when the registry is frozen. -/
def checkMutable (attempt : Attempt) : Serving Unit := do
  ofExcept ((← get).registry.checkMutable attempt)

/-- Writes to the registration of a class, which starts without settings. -/
def writeRegistration (c : Class Value) (change : Registration → Registration) : Serving Unit :=
  write fun r => { r with entities := fileUnder r.entities c {} change }

/-- Writes to the declarations of a class, which start empty. -/
def writeDeclarations (c : Class Value) (change : OptionTable → OptionTable) : Serving Unit :=
  write fun r => { r with declarations := fileUnder r.declarations c [] change }

/-- Writes a setting, if it is given. -/
def writeSetting {α : Type} (c : Class Value) (setting : Option α) (change : α → Registration → Registration) :
    Serving Unit :=
  match setting with
  | some a => writeRegistration c (change a)
  | none => return ()

/-- The registration of a class is opened first; the settings that are given are written one by one. -/
def registerEntity (cls : TypeExpr Value) (name : Option String) (embedded : Option Bool) (together : Value) :
    Serving Unit := do
  let .cls c := cls | ofExcept (.error (.definitionAnywhere (.notAClass cls.listing)))
  ofExcept (if name = some "" then .error (.definition .emptyEntityName ⟨some c.name.text, none⟩) else .ok ())
  let groups ← ofExcept (Registry.readTogether together)
  checkMutable (.entity c.name.text)
  writeRegistration c id
  writeSetting c name fun name old => { old with name := some name }
  writeSetting c embedded fun embedded old => { old with embedded := some embedded }
  writeSetting c (if groups.isEmpty then none else some groups) fun groups old => { old with together := groups }

/-- Fails when another key of the class was made the identifier. -/
def checkIdentifier (c : Class Value) (key : String) (o : Options) : Serving Unit := do
  if o.identifies then
    if let some other := Registry.otherIdentifier? ((← get).registry.declared c.name) key then
      ofExcept (.error (.definition (.secondIdentifier c.name.text other) ⟨some c.name.text, some key⟩))

/-- The declarations of a class are opened before another identifier is looked for among them. -/
def declareProperty (cls : TypeExpr Value) (key : Value) (es : List (Value × Value)) : Serving Unit := do
  let (c, key, o) ← ofExcept (Options.ofEntries cls key es)
  checkMutable (.property c.name.text key)
  writeDeclarations c id
  checkIdentifier c key o
  writeDeclarations c fun table => table.upsert .overlay key o

def registerProperty (cls : TypeExpr Value) (key options : Value) (named : Given) : Serving Unit := do
  declareProperty cls key (← ofExcept (Options.overlaid options named))

def registerRelationship (cls : TypeExpr Value) (key options : Value) (named : Given) : Serving Unit := do
  let relationship ← ofExcept (Options.builtLink cls key options named)
  declareProperty cls key [(.str "relationship", .relationship relationship)]

end Serving

/-- A single registration, with all of its arguments. -/
inductive RegistryCall
  | entity (cls : TypeExpr Value) (name : Option String) (embedded : Option Bool) (together : Value)
  | property (cls : TypeExpr Value) (key options : Value) (named : Given)
  | relationship (cls : TypeExpr Value) (key options : Value) (named : Given)

namespace RegistryCall

def make : RegistryCall → Serving Unit
  | entity cls name embedded together => Serving.registerEntity cls name embedded together
  | property cls key options named => Serving.registerProperty cls key options named
  | relationship cls key options named => Serving.registerRelationship cls key options named

/-- Calls that are made one after another, up to the first that fails. -/
def each : List RegistryCall → Serving Unit
  | [] => return ()
  | call :: rest => do
    call.make
    each rest

/-- The place of the first call that fails. -/
def refusedAt : List RegistryCall → CachedRegistry → Option Nat
  | [], _ => none
  | call :: rest, s =>
    match call.make.run s with
    | (.ok _, s) => (refusedAt rest s).map (· + 1)
    | (.error _, _) => some 0

/-- The calls that a bulk makes for its entries. -/
def bulk (cls : TypeExpr Value) (properties : List (Value × Value)) : List RegistryCall :=
  properties.map fun (key, options) => property cls key options []

/-- The single calls that register what the entries of a bulk say. -/
def singles (cls : TypeExpr Value) (properties : List (Value × Value)) : List RegistryCall :=
  properties.map fun (key, options) =>
    match Options.link? options with
    | some link => relationship cls key link []
    | none => property cls key options []

end RegistryCall

end Trischema
