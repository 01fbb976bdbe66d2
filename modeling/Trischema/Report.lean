import Trischema.Object.Arguments
import Trischema.Value.Equality

/-!
Reports: what callers outside see of an error of the library's own. A report has a message, a stable code
and details; the code alone decides the status of an answer that carries it.
-/

namespace Trischema

/-- The kinds of report. -/
inductive ReportKind
  | general | definition | missing | unresolved | frozen | collision | alreadyExists | notFound | hydration
  deriving DecidableEq, Repr

/-- A report; `context` repeats the parts of the details that callers ask for by name. -/
structure Report where
  message : Value
  code : Value
  details : Value
  context : List (String × Value)

namespace ReportKind

/-- The code of a report that is given none. -/
def generalCode : String := "POLYDB_ERROR"

/-- The code of all reports of a kind. -/
def code : ReportKind → String
  | general => generalCode
  | definition => "SCHEMA_DEFINITION_ERROR"
  | missing => "METADATA_MISSING"
  | unresolved => "UNRESOLVED_RELATIONSHIP_TARGET"
  | frozen => "REGISTRY_FROZEN"
  | collision => "UNIQUE_CONSTRAINT_VIOLATION"
  | alreadyExists => "ENTITY_ALREADY_EXISTS"
  | notFound => "ENTITY_NOT_FOUND"
  | hydration => "HYDRATE_FUNCTION_NOT_SET"

/-- The status of an answer that carries a report of a kind. -/
def status : ReportKind → Nat
  | definition => 422
  | missing | notFound => 404
  | frozen | collision | alreadyExists => 409
  | general | unresolved | hydration => 500

def all : List ReportKind :=
  [general, definition, missing, unresolved, frozen, collision, alreadyExists, notFound, hydration]

/-- What a report of a kind is made from. -/
def parameters : ReportKind → List Parameter
  | general => [.required "message", .optional "code", .optional "details"]
  | definition => [.required "message", .optional "class_name", .optional "key"]
  | missing => [.required "message", .required "class_name", .optional "key"]
  | unresolved => [.required "message", .required "class_name", .required "key"]
  | frozen => [.required "message"]
  | collision => [.required "message", .required "entity_name", .optional "fields"]
  | alreadyExists | notFound => [.required "message", .required "entity_name", .required "entity_id"]
  | hydration => [.required "entity_name"]

/-- A value, or another one where it counts as false. -/
def orElse (v other : Value) : Value := if v.truthy then v else other

/-- The named parts of a report besides its message. -/
def contextOf (kind : ReportKind) (values : List (String × Value)) : List (String × Value) :=
  (values.filter fun (k, _) => k != "message").map fun (k, v) =>
    (k, if kind = .collision ∧ k = "fields" then orElse v (.list []) else v)

/-- The message of a report. -/
def messageOf (kind : ReportKind) (values : List (String × Value)) : Value :=
  match kind with
  | hydration => .ofText? (Error.hydration ((values.lookup "entity_name").getD .null).display).message?
  | _ => (values.lookup "message").getD .null

/-- Makes a report from the values of its parameters. -/
def make (kind : ReportKind) (arguments : Arguments) : Except Error Report := do
  let values := (kind.parameters.map (·.name)).zip (← arguments.bind kind.parameters)
  let message := kind.messageOf values
  match kind with
  | general => return {
      message
      code := orElse ((values.lookup "code").getD .null) (.str generalCode)
      details := orElse ((values.lookup "details").getD .null) (.record [])
      context := [] }
  | _ =>
    let context := kind.contextOf values
    return { message, code := .str kind.code, details := .record context, context }

end ReportKind

namespace Report

/-- The text of a report. -/
def text (r : Report) : String := r.message.display

/-- A report as the body of an answer. -/
def toRecord (r : Report) : Value :=
  .record [("error", r.message), ("error_code", r.code), ("details", r.details)]

/-- All parts of a report by name. -/
def attributes (r : Report) : Value :=
  .keyed ([("message", r.message), ("code", r.code), ("details", r.details)] ++ r.context)

/-- The status of a code; one that no kind has stands for a failure of the server. -/
def statusOfCode (code : String) : Nat := ((ReportKind.all.find? (·.code == code)).map ReportKind.status).getD 500

/-- The status of an answer that carries a report. -/
def status (r : Report) : Except Error Nat :=
  if r.code.hashable then
    .ok (((ReportKind.all.find? fun k => r.code.same (.str k.code)).map ReportKind.status).getD 500)
  else .error (.failure .kind)

/-- The report of an error, if it is one of the library's own. -/
def ofError? (e : Error) : Option Report := do
  let code ← e.code?
  let message ← e.message?
  return { message := .str message, code := .str code, details := .record e.details, context := e.details }

end Report

end Trischema
