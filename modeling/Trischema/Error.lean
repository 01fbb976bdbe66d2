import Trischema.Value.Text
import Trischema.Value.Keyed
import Trischema.Calendar.Reading

/-!
What can go wrong, by cause. Every fault of a model or of a store carries what it is about; its wording
stands in one `message` function per kind, its stable code in `Error.code?` and its context in
`Error.details`.
-/

namespace Trischema

/-- The options that must be a text or a list of texts. -/
inductive TextsOption
  | uniqueTogether | joinColumns | cascade | edgeProperties
  deriving DecidableEq, Repr

/-- The options that must be a truth value. -/
inductive FlagOption
  | unique | optional | isIdentifier
  deriving DecidableEq, Repr

namespace TextsOption

def text : TextsOption → String
  | uniqueTogether => "unique_together"
  | joinColumns => "join_columns"
  | cascade => "cascade"
  | edgeProperties => "edge_properties"

end TextsOption

namespace FlagOption

def text : FlagOption → String
  | unique => "unique"
  | optional => "optional"
  | isIdentifier => "is_identifier"

end FlagOption

/-- Why a registration or a declared type is malformed. -/
inductive DefinitionFault
  | invalidDirection (given : String)
  | invalidCardinality (given : String)
  | emptyEdgeType
  | noTarget (edgeType : String)
  | badTarget (edgeType kind : String)
  | emptyKey
  | duplicateKey (cls : String)
  | unionType (listing : String)
  | shorthandArity (listing : String)
  | nestedArray (listing : String)
  | noDeclaredType
  | unsupportedDeclaredType (listing : String)
  | notTexts (option : TextsOption)
  | notAClass (listing : String)
  | emptyEntityName
  | secondIdentifier (cls other : String)
  | keyNotText (cls : String)
  | unknownOptions (cls key : String) (keys : List Value)
  | unsupportedType (cls key listing : String)
  | notAFlag (option : FlagOption) (cls key : String)
  | notAnEnum (cls key : String)
  | notARelationship (cls key : String)
  | unknownRelationshipOptions (cls key : String) (keys : List Value)
  | noEdgeType
  | joinWithoutOwner
  | joinTableShape
  | joinColumnCount (expected : Nat) (shape : String)
  | invalidRelationship (cls key : String) (inner : DefinitionFault)
  | manyIdentifiers (name : String) (keys : List String)
  | unknownTogether (name : String) (keys : List String)
  | unclassifiable (cls key : String) (inner : DefinitionFault)
  | unknownEdgeProperties (label key : String) (names : List String)
  | noIdentifier (name : String)

namespace DefinitionFault

private def place (cls key : String) : String := "'" ++ cls ++ "." ++ key ++ "'"

def message : DefinitionFault → String
  | invalidDirection given =>
    "Invalid direction '" ++ given ++ "'. Valid directions: " ++ Text.quotedList (Direction.all.map Direction.text)
  | invalidCardinality given =>
    "Invalid cardinality '" ++ given ++ "'. Valid values: " ++ Text.quotedList (Cardinality.all.map Cardinality.text)
  | emptyEdgeType => "Relationship edge_type cannot be empty"
  | noTarget edgeType => "Relationship '" ++ edgeType ++ "' requires a target"
  | badTarget edgeType kind =>
    "Relationship '" ++ edgeType ++ "' target must be a class, an entity name or a resolver, got " ++ kind
  | emptyKey => "Property key cannot be empty"
  | duplicateKey cls => "Duplicate property key in class '" ++ cls ++ "'"
  | unionType listing => "Union types are not supported: " ++ listing
  | shorthandArity listing => "Array shorthand must name exactly one element type, got " ++ listing
  | nestedArray listing => "Nested arrays are not supported: " ++ listing
  | noDeclaredType => "Property has no declared type"
  | unsupportedDeclaredType listing => "Unsupported declared type: " ++ listing
  | notTexts option => "Option '" ++ option.text ++ "' must be a string or a list of strings"
  | notAClass listing => "Only classes can be registered, got " ++ listing
  | emptyEntityName => "Entity name cannot be empty"
  | secondIdentifier cls other => "'" ++ cls ++ "' already declares identifier '" ++ other ++ "'"
  | keyNotText cls => "Property key of '" ++ cls ++ "' must be a non-empty string"
  | unknownOptions cls key keys => "Unknown options for " ++ place cls key ++ ": " ++ (Value.list keys).listing
  | unsupportedType cls key listing => "Unsupported type for " ++ place cls key ++ ": " ++ listing
  | notAFlag option cls key => "Option '" ++ option.text ++ "' of " ++ place cls key ++ " must be a bool"
  | notAnEnum cls key => "Option 'enum' of " ++ place cls key ++ " must be a non-empty list"
  | notARelationship cls key => "Option 'relationship' of " ++ place cls key ++ " must be a mapping"
  | unknownRelationshipOptions cls key keys =>
    "Unknown relationship options for " ++ place cls key ++ ": " ++ (Value.list keys).listing
  | noEdgeType => "Relationship requires an 'edge_type' string"
  | joinWithoutOwner => "Join configuration requires owner=True"
  | joinTableShape => "join_table is only valid for many-to-many relations"
  | joinColumnCount expected shape =>
    "join_columns expects at most " ++ toString expected ++ " name(s) for " ++ shape ++ " cardinality"
  | invalidRelationship cls key inner => "Invalid relationship " ++ place cls key ++ ": " ++ inner.message
  | manyIdentifiers name keys =>
    "'" ++ name ++ "' declares more than one identifier: " ++ Text.quotedList keys
  | unknownTogether name keys =>
    "unique_together of '" ++ name ++ "' names unknown properties: " ++ Text.quotedList keys
  | unclassifiable cls key inner => "Cannot classify " ++ place cls key ++ ": " ++ inner.message
  | unknownEdgeProperties label key names =>
    "Edge properties of " ++ place label key ++ " name unknown properties: " ++ Text.quotedList names
  | noIdentifier name => "'" ++ name ++ "' has no identifier and cannot be stored on its own"

end DefinitionFault

/-- What was looked for and never registered. -/
inductive MissingFault
  | metadata (cls : String)
  | relationship (cls key : String)
  | declaredType (cls key type : String)
  | entity (name : String)
  | properties (entity : String) (keys : List Value)
  | joinColumn (entity : String) (key : Value)

namespace MissingFault

def message : MissingFault → String
  | metadata cls => "Class '" ++ cls ++ "' has no registered metadata"
  | relationship cls key => "'" ++ cls ++ "." ++ key ++ "' is not a relationship"
  | declaredType cls key type =>
    "'" ++ cls ++ "." ++ key ++ "' declares type '" ++ type ++ "' which has no registered metadata"
  | entity name => "Entity '" ++ name ++ "' is not registered"
  | properties owner keys => "'" ++ owner ++ "' has no properties " ++ (Value.list keys).listing
  | joinColumn owner key =>
    "'" ++ owner ++ "." ++ key.display ++ "' has no join column and cannot be searched"

/-- The class that a fault is about. -/
def cls : MissingFault → String
  | metadata c | relationship c _ | declaredType c _ _ | entity c | properties c _ | joinColumn c _ => c

/-- The property that a fault is about, or `null`. -/
def key : MissingFault → Value
  | relationship _ k | declaredType _ k _ => .str k
  | properties _ ks => ks.headD .null
  | joinColumn _ k => k
  | metadata _ | entity _ => .null

end MissingFault

/-- Why a relationship target is not known. -/
inductive TargetFault
  | resolverFailed (reason : String)
  | notAClass (listing : String)
  deriving DecidableEq, Repr

namespace TargetFault

def message (cls key : String) : TargetFault → String
  | resolverFailed reason => "Target resolver for '" ++ cls ++ "." ++ key ++ "' failed: " ++ reason
  | notAClass listing =>
    "Target of '" ++ cls ++ "." ++ key ++ "' did not resolve to a class (got " ++ listing ++ ")"

end TargetFault

/-- What was attempted on a frozen registry. -/
inductive Attempt
  | entity (cls : String)
  | property (cls key : String)
  | freeze
  deriving DecidableEq, Repr

namespace Attempt

def message : Attempt → String
  | entity cls => "Cannot register entity '" ++ cls ++ "': registry is frozen"
  | property cls key => "Cannot register property '" ++ cls ++ "." ++ key ++ "': registry is frozen"
  | freeze => "Registry is already frozen"

end Attempt

/-- A write that collides with a stored unique key, as the record store or the table store reports it. -/
inductive Collision
  | values (entity : String) (group : List (String × Value))
  | fields (entity : String) (keys : List String)

namespace Collision

def message : Collision → String
  | values entity group => entity ++ " with " ++ (Value.keyed group).listing ++ " already exists"
  | fields entity keys => entity ++ " violates unique constraint on " ++ Text.quotedList keys

def entity : Collision → String
  | values e _ | fields e _ => e

def keys : Collision → List String
  | values _ group => group.map (·.1)
  | fields _ ks => ks

end Collision

/-- The writes that need a stored instance. -/
inductive Replacement
  | update | deletion
  deriving DecidableEq, Repr

namespace Replacement

def text : Replacement → String
  | update => "update"
  | deletion => "deletion"

end Replacement

/-- Values that an operation cannot work with. -/
inductive ValueFault
  | identifier (given : Value)
  | notAMember (name cls : String)
  | negativeDepth (given : Int)
  | unknownBackend (name : String) (valid : List String)
  | unsupportedOperator (op : String)
  | stageShape (stage : Value)
  | sortOrder (key : Value)
  | unsupportedStage (op : Value)
  | noIdentifierValue (entity key : String)
  | notANumber
  | notWhole (given : Value)
  | calendar (given : Value) (fault : CalendarFault)
  | unknownLevel (given : String)
  | byteRange
  /-- a number that documents have no form for -/
  | unwritableNumber

namespace CalendarFault

def message (given : Value) : CalendarFault → String
  | shape => "Invalid isoformat string: " ++ given.listing
  | year n => "year " ++ toString n ++ " is out of range"
  | month => "month must be in 1..12"
  | day => "day is out of range for month"
  | hour => "hour must be in 0..23"
  | minute => "minute must be in 0..59"
  | second => "second must be in 0..59"
  | offset micros =>
    "offset must be a timedelta strictly between -timedelta(hours=24) and timedelta(hours=24), not "
      ++ Moment.durationListing micros ++ "."

end CalendarFault

namespace ValueFault

def message : ValueFault → String
  | identifier given => "Cannot parse identifier from " ++ given.listing
  | notAMember name cls => "'" ++ name ++ "' is not a member of " ++ cls
  | negativeDepth given => "max_depth must be >= 0, got " ++ toString given
  | unknownBackend name valid => "Unknown backend '" ++ name ++ "'. Valid backends: " ++ Text.quotedList valid
  | unsupportedOperator op => "Unsupported operator '" ++ op ++ "'"
  | stageShape stage => "Pipeline stage must have exactly one operator: " ++ stage.listing
  | sortOrder key => "Sort order for '" ++ key.display ++ "' must be 1 or -1"
  | unsupportedStage op => "Unsupported pipeline stage '" ++ op.display ++ "'"
  | noIdentifierValue entity key => entity ++ " instance has no '" ++ key ++ "' value"
  | notANumber => "cannot convert float NaN to integer"
  | notWhole given => "invalid literal for int() with base 10: " ++ given.listing
  | calendar given fault => fault.message given
  | unknownLevel given => "Unknown level: " ++ Text.quoted given
  | byteRange => "byte must be in range(0, 256)"
  | unwritableNumber => "Out of range float values are not JSON compliant"

end ValueFault

/-- A row that its table does not admit. -/
inductive IntegrityFault
  | datatype
  | notNull (table column : String)
  | check (column : String)
  | unique (table : String) (columns : List String)
  deriving DecidableEq, Repr

namespace IntegrityFault

/-- Columns with their table. -/
def qualified (table : String) (columns : List String) : String :=
  ", ".intercalate (columns.map fun c => table ++ "." ++ c)

def message : IntegrityFault → String
  | datatype => "datatype mismatch"
  | notNull table column => "NOT NULL constraint failed: " ++ table ++ "." ++ column
  | check column => "CHECK constraint failed: " ++ column
  | unique table columns => "UNIQUE constraint failed: " ++ qualified table columns

end IntegrityFault

/-- Failures that are told apart by their kind alone. -/
inductive Failure
  /-- a value of a kind that an operation does not take -/
  | kind
  | attribute
  | key
  | index
  | overflow
  | name
  | encoding
  | json
  | module
  /-- settings that do not hold what they must -/
  | settings
  /-- a program that was given from outside failed -/
  | program
  /-- a statement that the table engine refuses -/
  | statement
  /-- a value that the table engine cannot take -/
  | binding
  /-- a value that an answer cannot hold -/
  | body
  deriving DecidableEq, Repr

/-- Where in a model a definition fault lies. -/
structure Site where
  cls : Option String
  key : Option String
  deriving DecidableEq, Repr

namespace Site

def nowhere : Site := ⟨none, none⟩

end Site

inductive Error
  | definition (fault : DefinitionFault) (site : Site)
  | missing (fault : MissingFault)
  | unresolved (fault : TargetFault) (cls key : String)
  | frozen (attempt : Attempt)
  | collision (c : Collision)
  | alreadyExists (entity id : String)
  | notFound (entity id : String) (write : Replacement)
  | hydration (entity : String)
  | value (fault : ValueFault)
  | integrity (fault : IntegrityFault)
  | failure (of : Failure)

namespace Error

/-- A definition fault with no place of its own. -/
def definitionAnywhere (fault : DefinitionFault) : Error := definition fault .nowhere

/-- The wording of an error; failures that are told apart by their kind have none. -/
def message? : Error → Option String
  | definition fault _ => some fault.message
  | missing fault => some fault.message
  | unresolved fault cls key => some (fault.message cls key)
  | frozen attempt => some attempt.message
  | collision c => some c.message
  | alreadyExists entity id => some (entity ++ " with ID " ++ id ++ " already exists")
  | notFound entity id write => some (entity ++ " with ID " ++ id ++ " not found for " ++ write.text)
  | hydration entity =>
    some ("Hydrate function not set for '" ++ entity ++ "'. Call on_hydrate() first.")
  | value fault => some fault.message
  | integrity fault => some fault.message
  | failure _ => none

/-- The stable code of an error of the library's own; other errors have none. -/
def code? : Error → Option String
  | definition .. => some "SCHEMA_DEFINITION_ERROR"
  | missing _ => some "METADATA_MISSING"
  | unresolved .. => some "UNRESOLVED_RELATIONSHIP_TARGET"
  | frozen _ => some "REGISTRY_FROZEN"
  | collision _ => some "UNIQUE_CONSTRAINT_VIOLATION"
  | alreadyExists .. => some "ENTITY_ALREADY_EXISTS"
  | notFound .. => some "ENTITY_NOT_FOUND"
  | hydration _ => some "HYDRATE_FUNCTION_NOT_SET"
  | value _ | integrity _ | failure _ => none

/-- The context of an error, as a record. -/
def details : Error → List (String × Value)
  | definition _ site => [("class_name", .ofText? site.cls), ("key", .ofText? site.key)]
  | missing fault => [("class_name", .str fault.cls), ("key", fault.key)]
  | unresolved _ cls key => [("class_name", .str cls), ("key", .str key)]
  | collision c => [("entity_name", .str c.entity), ("fields", .texts c.keys)]
  | alreadyExists entity id | notFound entity id _ =>
    [("entity_name", .str entity), ("entity_id", .str id)]
  | hydration entity => [("entity_name", .str entity)]
  | frozen _ | value _ | integrity _ | failure _ => []

end Error

namespace TypeExpr

/-- The own name of a type expression, where it must have one. -/
def requireName (t : TypeExpr Value) : Except Error String :=
  match t.ownName? with
  | some name => .ok name
  | none => .error (.failure .attribute)

end TypeExpr

end Trischema
