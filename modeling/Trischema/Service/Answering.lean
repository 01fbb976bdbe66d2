import Trischema.Backend
import Trischema.Report
import Trischema.Service.Basic
import Trischema.Service.Body

/-!
Answering requests from a registry. Errors of the library's own become answers with their report; those
that are the server's fault are logged as well. All other errors are passed on.
-/

namespace Trischema

namespace Response

/-- An answer with a single explanation. -/
def detail (status : Nat) (text : String) : Response := ⟨status, some (.record [("detail", .str text)])⟩

def notFound : Response := detail 404 "Not Found"

def wrongMethod : Response := detail 405 "Method Not Allowed"

def unknownBackend (name : String) : Response := detail 400 ("Unknown backend: " ++ name)

/-- The answer to a malformed parameter. -/
def malformed : Response := ⟨422, none⟩

/-- A successful answer. -/
def ofBody (v : Value) : Except Error Response := do return ⟨200, some (← Body.ofValue v)⟩

end Response

namespace Registry

/-- The summary of one class. -/
def summary (r : Registry) (c : Class Value) : Except Error Value := do
  let d ← r.descriptor (.cls c)
  return .record [("name", .str d.name), ("embedded", .bool d.embedded), ("properties", .texts d.keys)]

/-- The summary of all classes. -/
def listing (r : Registry) : Except Error Value := do
  let entities ← r.classes.mapM r.summary
  return .record [("entities", .list entities), ("frozen", .bool r.frozen),
    ("fingerprint", .ofText? r.fingerprint)]

/-- The descriptor of the class of a name. -/
def description (r : Registry) (name : String) : Except Error Value := do
  (← r.descriptor (.cls (← r.entity name))).toRecord

end Registry

namespace Service

/-- The depth limit that a request gives: none, a whole number, or something malformed. -/
def limitOf (q : Request) : Option (Option Int) :=
  match q.parameter? "max_depth" with
  | none => some none
  | some s =>
    match readWholeOrPointed? s with
    | some n => if n < 0 then none else some (some n)
    | none => none

/-- The artifact of a class for a backend. -/
def compileFor (r : Registry) (settings : Except Error Settings) (name : String) (backend : Backend)
    (limit : Option Int) : Warned Response :=
  match r.entity name with
  | .error e => .fail e
  | .ok c =>
    let compiled := Artifact.compile r settings (.cls c) limit backend
    { warnings := compiled.warnings
      result := do
        let artifact ← (← compiled.result).toRecord
        Response.ofBody (.record [("entity", .str name), ("backend", .str backend.name), ("artifact", artifact)]) }

/-- What a route answers. -/
def perform (r : Registry) (settings : Except Error Settings) (q : Request) : Route → Warned Response
  | .health => .ofResult (Response.ofBody (.record [("status", .str "ok")]))
  | .entities => .ofResult do Response.ofBody (← r.listing)
  | .entity name => .ofResult do Response.ofBody (← r.description name)
  | .artifact name backend =>
    match limitOf q, Backend.ofName? backend with
    | none, _ => .ofResult (.ok .malformed)
    | some _, none => .ofResult (.ok (.unknownBackend backend))
    | some limit, some b => compileFor r settings name b limit

/-- What is logged about a failure of the server. -/
def failureText (method path code message : String) : String :=
  method ++ " " ++ path ++ " failed: " ++ code ++ ": " ++ message

/-- The answer for an error of the library's own. -/
def recover (method path : String) (answer : Warned Response) : Warned Response :=
  match answer.result with
  | .ok _ => answer
  | .error e =>
    match e.code?, e.message?, Report.ofError? e with
    | some code, some message, some report =>
      let status := Report.statusOfCode code
      { warnings := answer.warnings ++ if status ≥ 500 then [failureText method path code message] else []
        result := .ok ⟨status, some report.toRecord⟩ }
    | _, _, _ => answer

/-- Answers a request. -/
def answer (r : Registry) (settings : Except Error Settings) (q : Request) : Warned Response :=
  match Route.find? q.path with
  | none => .ofResult (.ok .notFound)
  | some (path, route) =>
    if q.method != "GET" then .ofResult (.ok .wrongMethod)
    else recover q.method path (perform r settings q route)

end Service

end Trischema
