import Trischema.Error
import Trischema.Value.Equality
import Trischema.Number.Reading
import Trischema.Text.CaseFold

/-!
Settings. Each has a default, may be set by an environment variable of its own name in any case, and may
be overridden by a value; settings are valid together or not at all.
-/

namespace Trischema

structure Settings where
  /-- how deep embedded classes are expanded -/
  maxDepth : Nat
  documentIdField : String
  graphIdField : String
  relationalIdField : String
  /-- where tables are kept: a file, or in memory -/
  tablePath : String
  busyTimeout : Int
  logLevel : String
  logFormat : String
  deriving DecidableEq, Repr, Inhabited

namespace Settings

/-- The path that stands for tables in memory. -/
def memoryPath : String := ":memory:"

def defaults : Settings := ⟨5, "_id", "id", "id", memoryPath, 5000, "INFO", "text"⟩

/-- The names of all settings. -/
def names : List String :=
  ["max_depth", "document_id_field", "graph_id_field", "relational_id_field", "sqlite_path",
    "sqlite_busy_timeout_ms", "log_level", "log_format"]

/-- What a setting is set to: an override, else the last environment variable of its name. -/
def source? (env : List (String × String)) (overrides : Given) (name : String) : Option Value :=
  match overrides.lookup name with
  | some v => some v
  | none => ((env.filter fun (k, _) => Text.lower k == name).getLast?).map fun (_, s) => .str s

/-- A value as a whole number: a number without a fraction, or its text. -/
def wholeOf? (v : Value) : Option Int :=
  match v.text?, v.number? with
  | some s, _ => readWholeOrPointed? s
  | none, some (.int n) => some n
  | none, some (.float x) => x.toInt?
  | none, _ => none

/-- Reads a setting that is a whole number. -/
def readWhole (env : List (String × String)) (overrides : Given) (name : String) (default : Int) :
    Except Error Int :=
  match source? env overrides name with
  | none => .ok default
  | some v =>
    match wholeOf? v with
    | some n => .ok n
    | none => .error (.failure .settings)

/-- Reads a setting that is a text. -/
def readText (env : List (String × String)) (overrides : Given) (name default : String) :
    Except Error String :=
  match source? env overrides name with
  | none => .ok default
  | some v =>
    match v.text? with
    | some s => .ok s
    | none => .error (.failure .settings)

/-- Reads all settings. Overrides of unknown settings are refused, unknown variables are not. -/
def read (env : List (String × String)) (overrides : Given) : Except Error Settings := do
  if !overrides.all fun (k, _) => names.contains k then .error (.failure .settings)
  let maxDepth ← readWhole env overrides "max_depth" defaults.maxDepth
  if maxDepth < 0 then .error (.failure .settings)
  return {
    maxDepth := maxDepth.toNat
    documentIdField := ← readText env overrides "document_id_field" defaults.documentIdField
    graphIdField := ← readText env overrides "graph_id_field" defaults.graphIdField
    relationalIdField := ← readText env overrides "relational_id_field" defaults.relationalIdField
    tablePath := ← readText env overrides "sqlite_path" defaults.tablePath
    busyTimeout := ← readWhole env overrides "sqlite_busy_timeout_ms" defaults.busyTimeout
    logLevel := ← readText env overrides "log_level" defaults.logLevel
    logFormat := ← readText env overrides "log_format" defaults.logFormat }

/-- All settings by name. -/
def toRecord (s : Settings) : Value := .record [
  ("max_depth", .int s.maxDepth), ("document_id_field", .str s.documentIdField),
  ("graph_id_field", .str s.graphIdField), ("relational_id_field", .str s.relationalIdField),
  ("sqlite_path", .str s.tablePath), ("sqlite_busy_timeout_ms", .int s.busyTimeout),
  ("log_level", .str s.logLevel), ("log_format", .str s.logFormat)]

/-- Whether a class at a depth may still be expanded. -/
def within (depth limit : Int) : Bool := depth ≤ limit

/-- How deep to expand: an explicit limit, which may not be negative, or the configured one. -/
def limit (settings : Except Error Settings) : Option Int → Except Error Nat
  | none => settings.map (·.maxDepth)
  | some n => if n < 0 then .error (.value (.negativeDepth n)) else .ok n.toNat

end Settings

/-- How messages are logged. -/
structure LogSetup where
  level : Int
  format : String
  deriving DecidableEq, Repr

namespace LogSetup

/-- The numbers of the levels by name. -/
def levels : List (String × Int) :=
  [("CRITICAL", 50), ("DEBUG", 10), ("ERROR", 40), ("FATAL", 50), ("INFO", 20), ("NOTSET", 0), ("WARN", 30),
    ("WARNING", 30)]

/-- The number of messages of libraries that are passed on. -/
def libraryLevel : Int := 30

def textFormat : String := "%(asctime)s - %(name)s - %(levelname)s - %(message)s"

/-- The setup that settings ask for. An unknown level stands for information; two names of other things
are taken for levels and refused. -/
def ofSettings (s : Settings) : Except Error LogSetup := do
  let name := Text.upper s.logLevel
  if name = "BASIC_FORMAT" then .error (.value (.unknownLevel "%(levelname)s:%(name)s:%(message)s"))
  if name = "_STYLES" then .error (.failure .kind)
  return ⟨(levels.lookup name).getD 20, if s.logFormat = "json" then "json" else textFormat⟩

end LogSetup

end Trischema
