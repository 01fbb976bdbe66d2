import Trischema.CommandLine.Arguments
import Trischema.Json.Writer
import Trischema.Report

/-!
Running commands on a registry. A command writes a document with sorted members; an error of the library's
own is reported on the error stream and ends the run with a status of its own, all other errors are passed
on.
-/

namespace Trischema

/-- What a run leaves behind: its exit status, the two streams, and a file that it wrote. -/
structure Outcome where
  exit : Nat
  output : String := ""
  errors : String := ""
  file : Option (String × String) := none
  deriving DecidableEq, Repr

namespace Outcome

/-- A run whose command line was not understood. -/
def misused : Outcome := { exit := 2 }

def printed (text : String) : Outcome := { exit := 0, output := text ++ "\n" }

/-- A run that wrote its document to a file. -/
def exported (file text : String) : Outcome :=
  { exit := 0, errors := "Schema exported to " ++ file ++ "\n", file := some (file, text) }

/-- A run that ended with an error of the library's own. -/
def failed (code message : String) : Outcome :=
  { exit := 1, errors := "error [" ++ code ++ "]: " ++ message ++ "\n" }

/-- The outcome of a run, where an error has one. -/
def ofResult : Except Error Outcome → Except Error Outcome
  | .ok o => .ok o
  | .error e =>
    match e.code?, e.message? with
    | some code, some message => .ok (failed code message)
    | _, _ => .error e

end Outcome

namespace Registry

/-- A value as an indented document; values that a document cannot hold are refused. -/
def document (v : Value) : Except Error String := v.toJsonText (.indented 2) .refuse

/-- The artifact of the class of a name, as a document. -/
def compileText (r : Registry) (settings : Except Error Settings) (entity : String) (backend : Backend)
    (maxDepth : Option Int) : Except Error String := do
  let c ← r.entity entity
  document (← (← (Artifact.compile r settings (.cls c) maxDepth backend).result).toRecord)

/-- The descriptor of the class of a name, as a document. -/
def describeText (r : Registry) (entity : String) : Except Error String := do
  document (← (← r.descriptor (.cls (← r.entity entity))).toRecord)

/-- The artifacts of one class by backend. An embedded class is compiled for documents only. -/
def artifactsOf (r : Registry) (settings : Except Error Settings) (c : Class Value) :
    Except Error (String × Value) := do
  let d ← r.descriptor (.cls c)
  let backends := if d.embedded then [Backend.document] else Backend.all
  let artifacts ← backends.mapM fun b => do
    let artifact ← (Artifact.compile r settings (.cls c) none b).result
    return (b.name, ← artifact.toRecord)
  return (d.name, .record artifacts)

/-- All classes with all their artifacts, as a document. -/
def snapshotText (r : Registry) (settings : Except Error Settings) : Except Error String := do
  let compiled ← r.classes.mapM (r.artifactsOf settings)
  let exported ← r.toRecord
  document (.record [("version", .int 1), ("fingerprint", .str (r.fingerprint.getD "unfrozen")),
    ("schema", exported), ("compiled", .keyed compiled)])

/-- The registry, frozen now unless it is frozen already. -/
def ensureFrozen (r : Registry) : Except Error Registry :=
  if r.frozen then .ok r else r.freeze.map (·.2)

end Registry

namespace Command

/-- Runs a command. A snapshot freezes the registry, which stays frozen when it fails later on. -/
def run (settings : Except Error Settings) (r : Registry) : Command → Registry × Except Error Outcome
  | compile entity backend maxDepth =>
    (r, (r.compileText settings entity backend maxDepth).map Outcome.printed)
  | describe entity => (r, (r.describeText entity).map Outcome.printed)
  | snapshot output =>
    match r.ensureFrozen with
    | .error e => (r, .error e)
    | .ok r =>
      (r, (r.snapshotText settings).map fun text =>
        match output with
        | some file => if file.isEmpty then Outcome.printed text else Outcome.exported file text
        | none => Outcome.printed text)

end Command

namespace CommandLine

/-- The registries that a command may use, by the module that offers them. -/
inductive Source
  /-- the registry of the named module -/
  | module
  /-- the default registry -/
  | default
  deriving DecidableEq, Repr

/-- The source that a command line names. `known` lists the modules that there are, and whether each has a
registry of its own. -/
def source (known : List (String × Bool)) (named : Option String) : Except Error Source :=
  match named with
  | none => .ok .default
  | some name =>
    if name.isEmpty then .ok .default
    else
      match known.lookup name with
      | some own => .ok (if own then .module else .default)
      | none => .error (.failure (if name.startsWith "." then .kind else .module))

end CommandLine

end Trischema
