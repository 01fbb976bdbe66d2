import Trischema.Session.Basic
import Trischema.CommandLine.Running

/-!
Command lines within a session. The session offers one module, which may have the session's registry; a
command that names no registry uses the default one.
-/

namespace Trischema

namespace Session

/-- The name of the module that holds the classes of a session. -/
def moduleName : String := "model"

/-- The registry of a source. -/
def registryOf (s : Session) : CommandLine.Source → Registry
  | .module => s.registry
  | .default => s.defaultRegistry

/-- Replaces the registry of a source. -/
def withRegistryOf (s : Session) (r : Registry) : CommandLine.Source → Session
  | .module => { s with registry := r }
  | .default => s.withDefaultRegistry r

end Session

namespace Step

/-- Runs a command line. Logging is set up first, which needs valid settings. -/
def command (exposesRegistry : Bool) (words : List String) : Step Outcome := do
  match CommandLine.read? words with
  | none => return .misused
  | some invocation =>
    let s ← get
    let _ ← ofExcept (s.settings.bind LogSetup.ofSettings)
    let source ← ofExcept (CommandLine.source [(Session.moduleName, exposesRegistry)] invocation.module)
    let (registry, result) := invocation.command.run s.settings (s.registryOf source)
    set (s.withRegistryOf registry source)
    ofExcept (Outcome.ofResult result)

end Step

end Trischema
