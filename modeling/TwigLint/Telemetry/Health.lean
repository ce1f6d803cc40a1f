import TwigLint.Output.Json

/-! # Health endpoints

The answers of a watching run to questions about its health.  It is ready when all its checks pass.
-/

namespace TwigLint

/-- A named check with the problem that it found, if any. -/
structure HealthCheck where
  name : Text
  problem : Option Text

/-- The version of the program, and what it was built from, when and with what. -/
structure VersionInfo where
  version : Text
  commit : Text
  built : Text
  toolchain : Text

/-- The body of an answer. -/
inductive Body where
  | nothing
  | text (t : Text)
  | json (v : Json)

/-- An answer with its status code. -/
structure Response where
  code : Nat
  contentType : Text
  body : Body

namespace Response

def plain (code : Nat) (message : Text) : Response :=
  ⟨code, "text/plain; charset=utf-8", .text (message ++ "\n")⟩

def json (code : Nat) (v : Json) : Response := ⟨code, "application/json", .json v⟩

def methodNotAllowed : Response := plain 405 "Method not allowed"

def notFound : Response := plain 404 "404 page not found"

def withoutBody (r : Response) : Response := { r with body := .nothing }

end Response

namespace Health

/-- The names of the checks in order. -/
def names (checks : List HealthCheck) : List Text := Text.sort (checks.map (·.name))

/-- All checks pass. -/
def isReady (checks : List HealthCheck) : Bool := checks.all (·.problem.isNone)

/-- A check in JSON. -/
def checkJson (c : HealthCheck) : Json :=
  match c.problem with
  | none => .object [("status", .text "ok")]
  | some p =>
    let fields : List (Text × Json) := [("status", .text "unhealthy")]
    .object (fields ++ if p.isEmpty then [] else [((Text.ofString "message"), Json.text p)])

/-- The answer that the program runs. -/
def liveness (time : Text) : Response :=
  .json 200 (.object [("status", .text "ok"), ("timestamp", .text time)])

/-- The answer to whether the program is ready, with the checks in the order of their names. -/
def readiness (checks : List HealthCheck) (time : Text) : Response :=
  let status : Text := if isReady checks then "ready" else "degraded"
  let sorted := checks.mergeSort fun a b => a.name.le b.name
  let shown : List (Text × Json) :=
    if sorted.isEmpty then []
    else [("checks", .object (sorted.map fun c => (c.name, checkJson c)))]
  let stamp : List (Text × Json) := [("timestamp", .text time)]
  .json (if isReady checks then 200 else 503)
    (.object (((Text.ofString "status"), Json.text status) :: shown ++ stamp))

/-- The answer to which version runs. -/
def versionResponse (v : VersionInfo) : Response :=
  .json 200 (.object [("version", .text v.version), ("commit", .text v.commit),
    ("build_time", .text v.built), ("go_version", .text v.toolchain)])

/-- The answer at a path; nothing else than reading is allowed. -/
def respond (v : VersionInfo) (checks : List HealthCheck) (time method path : Text) : Response :=
  let found? : Option Response :=
    if path == "/health" then some (liveness time)
    else if path == "/ready" then some (readiness checks time)
    else if path == "/version" then some (versionResponse v)
    else none
  match found? with
  | none => .notFound
  | some r =>
    if method == "GET" || method.isEmpty then r
    else if method == "HEAD" then r.withoutBody
    else .methodNotAllowed

end Health

end TwigLint
