import Trischema.Property.Basic

/-!
Declaring properties: the checks on the options of one declaration and their stored form. A declaration
is refused as a whole at its first fault.
-/

namespace Trischema

namespace FlagOption

/-- The flags in the order in which they are checked. -/
def all : List FlagOption := [unique, optional, isIdentifier]

end FlagOption

namespace Options

/-- The options of a property. -/
def optionNames : List String :=
  ["type", "unique", "optional", "is_identifier", "enum", "default", "relationship"]

/-- The declared type; an optional type makes the property optional unless the options say otherwise. -/
def readType (cls key : String) (given : Given) (site : Site) : Except Error Options :=
  match given.lookup "type" with
  | none => .ok {}
  | some v =>
    let t := TypeExpr.ofValue v
    if !t.isSupported && (given.lookup "relationship").isNone then
      .error (.definition (.unsupportedType cls key t.listing) site)
    else
      match t.unwrapOptional with
      | .error fault => .error (.definitionAnywhere fault)
      | .ok (t, optional) =>
        .ok { type := some t, optional := if optional && (given.lookup "optional").isNone then some true else none }

/-- Sets one flag. -/
def setFlag (o : Options) (b : Bool) : FlagOption → Options
  | .unique => { o with unique := some b }
  | .optional => { o with optional := some b }
  | .isIdentifier => { o with isIdentifier := some b }

/-- Reads the flags that are given; each must be a truth value. -/
def readFlags (cls key : String) (given : Given) (site : Site) (o : Options) :
    List FlagOption → Except Error Options
  | [] => .ok o
  | flag :: flags =>
    match given.lookup flag.text with
    | none => readFlags cls key given site o flags
    | some (.bool b) => readFlags cls key given site (o.setFlag b flag) flags
    | some _ => .error (.definition (.notAFlag flag cls key) site)

/-- Reads the values that a property is restricted to: a list or tuple with at least one. -/
def readEnum (cls key : String) (given : Given) (site : Site) :
    Except Error (Option (List Value)) :=
  match given.lookup "enum" with
  | none => .ok none
  | some (.list (v :: vs)) | some (.tuple (v :: vs)) => .ok (some (v :: vs))
  | some _ => .error (.definition (.notAnEnum cls key) site)

/-- Reads a relationship, given as one or by its options. -/
def readRelationship (cls key : String) (given : Given) (site : Site) :
    Except Error (Option (Relationship Value)) :=
  match given.lookup "relationship" with
  | none => .ok none
  | some (.relationship r) => .ok (some r)
  | some (.mapping es) => (Relationship.ofEntries cls key es).map some
  | some _ => .error (.definition (.notARelationship cls key) site)

/-- The stored form of the options of one declaration, which are the entries of a dictionary. -/
def ofEntries (cls : TypeExpr Value) (key : Value) (es : List (Value × Value)) :
    Except Error (Class Value × String × Options) := do
  let .cls c := cls | .error (.definitionAnywhere (.notAClass cls.listing))
  let name := c.name.text
  let key ← match key.text? with
    | some k => if k.isEmpty then .error (.definition (.keyNotText name) ⟨some name, none⟩) else Except.ok k
    | none => .error (.definition (.keyNotText name) ⟨some name, none⟩)
  let site : Site := ⟨some name, some key⟩
  Given.checkKeys optionNames es (.unknownOptions name key) site
  let given := Given.ofEntries es
  let o ← readType name key given site
  let o ← readFlags name key given site o FlagOption.all
  let enum ← readEnum name key given site
  let relationship ← readRelationship name key given site
  return (c, key, { o with enum, default := given.lookup "default", relationship })

end Options

end Trischema
