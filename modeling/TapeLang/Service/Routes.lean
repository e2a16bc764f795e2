import TapeLang.Service.Readiness
import TapeLang.Service.Request
import TapeLang.Validation

/-!
# Routes of the service

**Input.** A request: its method, its path and its JSON body.
**Results.** `respond` gives the status and the JSON body of the response.

The answers to an unknown path, to a wrong method and to a body that does not fit
are those of a general framework of services, of which no more than that is here;
the answers of the five routes are this service's own.
-/

namespace TapeLang
namespace Service

structure Request where
  method : String
  path : String
  body? : Option Json

structure Response where
  status : Nat
  body : Json

namespace Response

/-- A response to a request that was understood. -/
def ok (body : Json) : Response :=
  { status := 200, body := body }

/-- A response that only tells what is wrong. -/
def detail (status : Nat) (text : String) : Response :=
  { status := status, body := .object [("detail", .text text)] }

/-- The response to a body that does not fit. -/
def unprocessable (found : List Finding) : Response :=
  { status := 422
    body := .object [("detail", .list (found.map Finding.toJson))] }

end Response

section Endpoints

/-- What the service offers. -/
def describe : Json :=
  .object
    [ ("name", .text apiName),
      ("version", .text versionNumber),
      ("docs", .text "/docs"),
      ("health", .text "/health"),
      ("ready", .text "/health/ready"),
      ("execute", .text "/api/v1/execute"),
      ("validate", .text "/api/v1/validate") ]

def health : Json :=
  .object
    [ ("status", .text "healthy"),
      ("version", .text versionNumber),
      ("service", .text (programName ++ "-api")) ]

/-- Whether every stage of the interpreter works. -/
def readiness (patience : Nat) (probe : Probe) : Response :=
  let (checks, _) := selfCheck patience probe
  { status := if checks.ready then 200 else 503
    body := .object [("ready", .bool checks.ready), ("checks", checks.toJson)] }

/-- The answer to a request to run a program.  Time is not measured: the field
`execution_time_ms` of the answer is left out. -/
structure ExecuteAnswer where
  success : Bool
  output : String
  outputSize : Nat
  steps : Int
  errorKind? : Option String
  error? : Option String
deriving DecidableEq

def ExecuteAnswer.ofReport (r : Report) : ExecuteAnswer :=
  { success := r.success
    output := Text.latin1 r.output
    outputSize := r.outputSize
    steps := r.steps
    errorKind? := r.errorKind?
    error? := if r.errors.isEmpty then none else some ("; ".intercalate r.errors) }

def ExecuteAnswer.toJson (a : ExecuteAnswer) : Json :=
  .object
    [ ("success", .bool a.success),
      ("output", .text a.output),
      ("output_size", .nat a.outputSize),
      ("steps", .int a.steps),
      ("error_kind", .option (a.errorKind?.map .text)),
      ("error", .option (a.error?.map .text)) ]

/-- Runs the program of a request.  A request has a step budget, so that no
patience is needed; its tape can always be laid out. -/
def ExecuteRequest.ending (r : ExecuteRequest) : Ending :=
  (interpret 0 r.config (.text r.source) (.ofBytes r.input)).1

def executeEndpoint (body? : Option Json) : Response :=
  match ExecuteRequest.ofBody body? with
  | .error found => .unprocessable found
  | .ok request =>
      match request.ending with
      | .reported r => .ok (ExecuteAnswer.ofReport r).toJson
      | _ => .detail 500 "Internal Server Error"

def validateEndpoint (body? : Option Json) : Response :=
  match ValidateRequest.ofBody body? with
  | .error found => .unprocessable found
  | .ok request => .ok (validate request.source).toJson

end Endpoints

section Routing

inductive Route where
  | root
  | health
  | readiness
  | execute
  | validate
deriving DecidableEq

namespace Route

def ofPath? : String → Option Route
  | "/" => some .root
  | "/health" => some .health
  | "/health/ready" => some .readiness
  | "/api/v1/execute" => some .execute
  | "/api/v1/validate" => some .validate
  | _ => none

def method : Route → String
  | .execute => "POST"
  | .validate => "POST"
  | _ => "GET"

end Route

/-- The path of a request without its query. -/
def withoutQuery (path : String) : String :=
  String.ofList (path.toList.takeWhile (· ≠ '?'))

/-- A path without the slashes at its end. -/
def withoutEndSlashes (path : String) : String :=
  String.ofList (path.toList.reverse.dropWhile (· == '/')).reverse

/-- The route that a request asks for.  A path that is not known is tried once
more without the slashes at its end. -/
def routeOf? (path : String) : Option Route :=
  match Route.ofPath? (withoutQuery path) with
  | some route => some route
  | none => Route.ofPath? (withoutEndSlashes (withoutQuery path))

/-- Answers a request that a route was found for. -/
def Route.answer (route : Route) (patience : Nat) (probe : Probe)
    (body? : Option Json) : Response :=
  match route with
  | .root => .ok describe
  | .health => .ok Service.health
  | .readiness => Service.readiness patience probe
  | .execute => executeEndpoint body?
  | .validate => validateEndpoint body?

def respond (patience : Nat) (probe : Probe) (request : Request) : Response :=
  match routeOf? request.path with
  | none => .detail 404 "Not Found"
  | some route =>
      if request.method = route.method then
        route.answer patience probe request.body?
      else
        .detail 405 "Method Not Allowed"

end Routing

end Service
end TapeLang
