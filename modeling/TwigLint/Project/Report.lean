import TwigLint.Lint.Diagnostic
import TwigLint.Output.Format
import TwigLint.Timestamp

/-! # Reports

The outcome of a run: the findings of every component that was checked, in the order of their
discovery, and the forms in which a report is shown.
-/

namespace TwigLint

/-- The findings of one component. -/
structure Result where
  id : Text
  project : Text
  path : Text
  diagnostics : List Diagnostic

/-- The outcome of a run. -/
structure Report where
  runId : Text
  /-- What started the run. -/
  trigger : Text
  startedAt : Timestamp
  /-- In nanoseconds. -/
  duration : Int
  results : List Result

namespace Report

/-- All findings, component by component. -/
def diagnostics (r : Report) : List Diagnostic := r.results.flatMap (·.diagnostics)

/-- Some finding is at least as severe as a threshold. -/
def failed (threshold : Severity) (r : Report) : Bool :=
  r.results.any fun res => Diagnostic.anyAtLeast threshold res.diagnostics

/-- The report without less severe findings.  Components without findings stay. -/
def filter (threshold : Severity) (r : Report) : Report :=
  { r with results := r.results.map fun res =>
      { res with diagnostics := Diagnostic.atLeast threshold res.diagnostics } }

/-! ## Shown forms -/

/-- A number with a noun. -/
def counted (n : Nat) (noun : Text) : Text :=
  if n = 1 then "1 " ++ noun else Text.ofNat n ++ " " ++ noun ++ "s"

/-- The number of findings by severity, the most severe first. -/
def summary (r : Report) : Text :=
  let ds := r.diagnostics
  let components := counted r.results.length "component"
  if ds.isEmpty then "No problems found in " ++ components ++ "."
  else
    let parts : List Text := (List.range 8).filterMap fun (level : Nat) =>
      let severity : Severity := ⟨level⟩
      let n := (ds.filter (·.severity == severity)).length
      if n = 0 then none else some (Text.ofNat n ++ " " ++ severity.name.map Text.toLower)
    counted ds.length "problem" ++ " in " ++ components ++ " (" ++ Text.join ", " parts ++ ")."

def columns : List Text := ["component", "severity", "message", "type", "line", "source"]

/-- The cells of a finding; a finding without a line has a dash. -/
def row (d : Diagnostic) : List Text :=
  [d.id, d.severity.name, d.message.trimSpace, d.origin.label,
    if d.line = 0 then "-" else Text.ofInt d.line, d.excerpt.trimSpace]

/-- One finding per line, and the summary. -/
def text (r : Report) : Text :=
  (r.diagnostics.flatMap fun d => d.render ++ [('\n' : UInt8)]) ++ r.summary ++ "\n"

/-- A field unless its value is empty. -/
def optional (name : Text) (isEmpty : Bool) (v : Json) : List (Text × Json) :=
  if isEmpty then [] else [(name, v)]

/-- A finding in JSON. -/
def diagnosticJson (d : Diagnostic) : Json :=
  let fields : List (Text × Json) :=
    [("component", .text d.id), ("severity", .text d.severity.name),
      ("level", .ofInt d.severity.level), ("message", .text d.message),
      ("type", .text d.origin.label)]
  .object (fields ++ optional "rule" d.rule.isEmpty (.text d.rule) ++
    [((Text.ofString "line"), Json.ofInt d.line)] ++
    optional "column" (d.column == 0) (.ofInt d.column) ++
    optional "source" d.excerpt.isEmpty (.text d.excerpt))

/-- The number of findings by severity, by name. -/
def countsJson (ds : List Diagnostic) : Json :=
  let counts := (Diagnostic.countBySeverity ds).map fun (s, n) => (s.name, n)
  .object ((counts.mergeSort fun a b => a.1.le b.1).map fun (name, n) => (name, .ofNat n))

/-- The report in JSON; the duration is in milliseconds. -/
def json (r : Report) : Json :=
  let fields : List (Text × Json) :=
    [("run_id", .text r.runId), ("trigger", .text r.trigger),
      ("started_at", .text r.startedAt.internet), ("duration_ms", .ofInt (r.duration.tdiv 1000000)),
      ("components", .list (r.results.map fun res => .text res.id)),
      ("summary", countsJson r.diagnostics),
      ("diagnostics", .list (r.diagnostics.map diagnosticJson))]
  .object fields

/-- The report as something to print. -/
def content (r : Report) : Content :=
  .tabular columns (r.diagnostics.map row) r.text r.json

end Report

end TwigLint
