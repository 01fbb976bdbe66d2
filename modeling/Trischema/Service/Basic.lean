import Trischema.Text.Percent
import Trischema.Text.Splitting
import Trischema.Value.Basic

/-!
The schema service: requests, the routes that they name, and responses. A path is percent-coded, at most
twice over, and names a route by its parts.
-/

namespace Trischema

structure Request where
  method : String
  path : String
  query : List (String × String)
  deriving DecidableEq, Repr

/-- An answer; one that only reports a malformed parameter has no body. -/
structure Response where
  status : Nat
  body : Option Value

namespace Request

/-- A part of a query: a plus sign stands for a blank. -/
def decodePart (cs : List Char) : String :=
  Text.percentDecode (String.ofList (cs.map fun c => if c = '+' then ' ' else c))

/-- The parameters of a query. -/
def parameters (cs : List Char) : List (String × String) :=
  ((Text.splitAll '&' cs).filter (!·.isEmpty)).map fun part =>
    let (name, value) := Text.cutAt '=' part
    (decodePart name, decodePart (value.getD []))

/-- The request for a target: a path, and a query behind a question mark. -/
def ofTarget (method target : String) : Request :=
  let (path, query) := Text.cutAt '?' (Text.cutAt '#' target.toList).1
  { method
    path := Text.percentDecode (Text.percentDecode (String.ofList path))
    query := parameters (query.getD []) }

/-- The last value of a parameter. -/
def parameter? (q : Request) (name : String) : Option String := q.query.reverse.lookup name

end Request

/-- What a request can ask for. -/
inductive Route
  | health
  | entities
  | entity (name : String)
  | artifact (entity backend : String)
  deriving DecidableEq, Repr

namespace Route

/-- The route of a path without a slash at its end. -/
def ofParts? : List String → Option Route
  | ["", "v1", "health"] => some health
  | ["", "v1", "schema"] => some entities
  | ["", "v1", "schema", name] => if name.isEmpty then none else some (entity name)
  | ["", "v1", "schema", name, backend] =>
    if name.isEmpty || backend.isEmpty then none else some (artifact name backend)
  | _ => none

def ofPath? (path : String) : Option Route :=
  ofParts? ((Text.splitAll '/' path.toList).map String.ofList)

/-- A path without the slashes at its end. -/
def withoutSlashes (path : String) : String :=
  String.ofList (path.toList.reverse.dropWhile (· == '/')).reverse

/-- The path that a request is answered for, with its route. A path with slashes at its end stands for the
one without them where that has a route. -/
def find? (path : String) : Option (String × Route) :=
  match ofPath? path with
  | some route => some (path, route)
  | none =>
    if path.endsWith "/" && path != "/" then do
      let stripped := withoutSlashes path
      let _ ← ofPath? stripped
      let path := Text.percentDecode stripped
      return (path, ← ofPath? path)
    else none

end Route

end Trischema
