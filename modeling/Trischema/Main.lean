import Trischema.CommandLine.Running
import Trischema.Settings

/-!
The command line: it works on the default registry, which no module has filled, and takes its settings from
the environment.
-/

namespace Trischema

/-- What the names of environment variables begin with. -/
def variableMark : String := "POLYDB_"

/-- The environment variables that hold settings. -/
def readEnvironment : IO (List (String × String)) :=
  Settings.names.filterMapM fun name => do
    return (← IO.getEnv (variableMark ++ name.toUpper)).map (name, ·)

/-- Runs a command line on the default registry. -/
def runDefault (environment : List (String × String)) (words : List String) : Except Error Outcome :=
  match CommandLine.read? words with
  | none => .ok .misused
  | some invocation => do
    let settings := Settings.read environment []
    let _ ← settings.bind LogSetup.ofSettings
    let _ ← CommandLine.source [] invocation.module
    Outcome.ofResult (invocation.command.run settings {}).2

end Trischema

def main (words : List String) : IO UInt32 := do
  match Trischema.runDefault (← Trischema.readEnvironment) words with
  | .ok outcome =>
    IO.print outcome.output
    IO.eprint outcome.errors
    if let some (file, text) := outcome.file then IO.FS.writeFile file text
    return outcome.exit.toUInt32
  | .error e =>
    IO.eprintln (e.message?.getD "error")
    return 1
