import TwigLint.Config.Basic
import TwigLint.Number.Shortest

/-! # Metrics

Counters, gauges and histograms of validations and runs.  A series of a metric is told apart by its
label values.  The number of different rule names is bounded; further names are counted together.
-/

namespace TwigLint

/-! ## Bounded sets of label values -/

/-- The label values seen so far, at most `limit` of them. -/
structure LabelLimit where
  limit : Int
  seen : List Text
  deriving DecidableEq, Repr

namespace LabelLimit

def new (limit : Int) : LabelLimit := ⟨limit, []⟩

/-- The number of values seen. -/
def count (l : LabelLimit) : Nat := l.seen.length

/-- A value is admitted if it was seen before or there is room for it. -/
def allows (l : LabelLimit) (value : Text) : Bool := l.seen.contains value || l.count < l.limit

/-- The limit after a value was asked for. -/
def seeing (l : LabelLimit) (value : Text) : LabelLimit :=
  if l.allows value && !l.seen.contains value then { l with seen := l.seen ++ [value] } else l

end LabelLimit

/-! ## Series -/

/-- Labels with their values, in the order of the label names. -/
abbrev Labels := List (Text × Text)

structure Histogram where
  /-- Upper bounds with the number of observations up to each. -/
  buckets : List (Double × Nat)
  count : Nat
  sum : Double

namespace Histogram

def empty (bounds : List Double) : Histogram := ⟨bounds.map fun b => (b, 0), 0, .zero⟩

def observe (h : Histogram) (x : Double) : Histogram :=
  ⟨h.buckets.map fun (b, n) => (b, if x.le b then n + 1 else n), h.count + 1, h.sum.add x⟩

/-- The first bound that is not below the one after it. -/
def misplaced? : List Double → Option (Double × Double)
  | x :: y :: rest => if y.le x then some (x, y) else misplaced? (y :: rest)
  | _ => none

/-- A histogram without observations; its bounds have to increase. -/
def new (bounds : List Double) : Except Crash Histogram :=
  match misplaced? bounds with
  | none => .ok (empty (bounds.filter fun b => !b.isInfinite || b.isNegative))
  | some (x, y) => .error (.because ("histogram buckets must be in increasing order: " ++
      FloatStyle.fixed 6 x ++ " >= " ++ FloatStyle.fixed 6 y))

end Histogram

/-- What is measured of a series. -/
inductive Sample where
  | counter (n : Nat)
  | gauge (x : Double)
  | histogram (h : Histogram)

/-- A metric with its series, in the order of their label values. -/
structure MetricFamily where
  name : Text
  help : Text
  series : List (Labels × Sample)

/-- Series with one value per set of labels. -/
abbrev Series (α : Type) := List (Labels × α)

namespace Series

/-- Changes the value of a series, which starts with `start`. -/
def update {α : Type} (s : Series α) (labels : Labels) (start : α) (change : α → α) : Series α :=
  if s.any (·.1 == labels) then s.map fun (l, a) => (l, if l == labels then change a else a)
  else s ++ [(labels, change start)]

def increment (s : Series Nat) (labels : Labels) : Series Nat := s.update labels 0 (· + 1)

/-- The order of the label values. -/
def before : Labels → Labels → Bool
  | [], _ => true
  | _, [] => false
  | (_, a) :: as, (_, b) :: bs => if a == b then before as bs else a.le b

/-- The series in the order of their label values, as samples. -/
def samples {α : Type} (sample : α → Sample) (s : Series α) : List (Labels × Sample) :=
  (s.mergeSort fun a b => before a.1 b.1).map fun (l, a) => (l, sample a)

end Series

/-! ## The metrics of this program -/

structure Metrics where
  enabled : Bool
  nameSpace : Text
  subsystem : Text
  durationBuckets : List Double
  rules : LabelLimit
  validations : Series Nat
  validationDuration : Series Histogram
  diagnostics : Series Nat
  ruleDiagnostics : Series Nat
  ruleFailures : Series Nat
  runs : Series Nat
  runDuration : Series Histogram
  runComponents : Double
  lastRun : Double

namespace Metrics

/-- How many different rule names are counted. -/
def ruleLimit : Int := 100

/-- The label of the rules beyond the limit. -/
def otherRule : Text := "other"

/-- Metrics of which nothing is recorded. -/
def new (c : MetricsConfig) : Metrics where
  enabled := c.enabled
  nameSpace := Config.orElse c.nameSpace "sdclint"
  subsystem := Config.orElse c.subsystem "lint"
  durationBuckets := if c.durationBuckets.isEmpty then Config.defaultBuckets else c.durationBuckets
  rules := .new ruleLimit
  validations := []
  validationDuration := []
  diagnostics := []
  ruleDiagnostics := []
  ruleFailures := []
  runs := []
  runDuration := []
  runComponents := .zero
  lastRun := .zero

/-- Nanoseconds in seconds. -/
def seconds (ns : Int) : Double :=
  (Double.ofInt (ns.tdiv 1000000000)).add ((Double.ofInt (ns.tmod 1000000000)).divNat 1000000000)

/-- The bounds of the durations of runs: from ten milliseconds on, each twice the one before. -/
def runBuckets : List Double :=
  (List.range 12).map fun i => (Double.ofRatio false 1 100).mul (.ofInt (1 <<< i : Nat))

/-- Adds an observation to a series of histograms. -/
def observe (s : Series Histogram) (labels : Labels) (bounds : List Double) (ns : Int) :
    Except Crash (Series Histogram) := do
  return s.update labels (← Histogram.new bounds) (·.observe (seconds ns))

/-- What a validation came to. -/
def outcome (ds : List Diagnostic) : Text :=
  if ds.any (·.rule == "parse") then "parse_error"
  else if ds.isEmpty then "clean" else "diagnostics"

/-- The label under which a rule is counted, and the metrics that know it. -/
def ruleLabel (m : Metrics) (rule : Text) : Text × Metrics :=
  (if m.rules.allows rule then rule else otherRule, { m with rules := m.rules.seeing rule })

/-- Counts a finding. -/
def countDiagnostic (m : Metrics) (d : Diagnostic) : Metrics :=
  let m := { m with diagnostics :=
    m.diagnostics.increment [("kind", d.origin.name), ("severity", d.severity.name)] }
  if d.rule.isEmpty then m
  else
    let (rule, m) := m.ruleLabel d.rule
    { m with ruleDiagnostics := m.ruleDiagnostics.increment [("rule", rule)] }

/-- Records a validation of a component or of a bare template. -/
def recordValidation (m : Metrics) (target : Text) (ds : List Diagnostic) (ns : Int) :
    Except Crash Metrics := do
  if !m.enabled then return m
  let durations ← observe m.validationDuration [("target", target)] m.durationBuckets ns
  let m := { m with
    validations := m.validations.increment [("outcome", outcome ds), ("target", target)]
    validationDuration := durations }
  return ds.foldl countDiagnostic m

/-- Records that a rule broke off. -/
def recordFailure (m : Metrics) (rule : Text) : Metrics :=
  if !m.enabled then m
  else
    let (rule, m) := m.ruleLabel rule
    { m with ruleFailures := m.ruleFailures.increment [("rule", rule)] }

/-- Records a run that ended at a time. -/
def recordRun (m : Metrics) (trigger : Text) (components : Int) (failed : Bool) (ns : Int)
    (time : Double) : Except Crash Metrics := do
  if !m.enabled then return m
  let status : Text := if failed then "failed" else "passed"
  return { m with
    runs := m.runs.increment [("status", status), ("trigger", trigger)]
    runDuration := ← observe m.runDuration [("trigger", trigger)] runBuckets ns
    runComponents := .ofInt components
    lastRun := time }

/-- All metrics that have series, in the order of their names. -/
def families (m : Metrics) : List MetricFamily :=
  let named (name help : Text) (series : List (Labels × Sample)) : MetricFamily :=
    ⟨m.nameSpace ++ "_" ++ m.subsystem ++ "_" ++ name, help, series⟩
  let all : List MetricFamily := [
    named "diagnostics_total" "Total number of diagnostics reported"
      (m.diagnostics.samples .counter),
    named "last_run_timestamp_seconds" "Unix time the last run finished" [([], .gauge m.lastRun)],
    named "rule_diagnostics_total" "Total number of diagnostics reported per rule"
      (m.ruleDiagnostics.samples .counter),
    named "rule_failures_total" "Total number of rules that failed while checking a node"
      (m.ruleFailures.samples .counter),
    named "run_components" "Number of components validated by the last run"
      [([], .gauge m.runComponents)],
    named "run_duration_seconds" "Wall time of lint runs in seconds"
      (m.runDuration.samples .histogram),
    named "runs_total" "Total number of lint runs" (m.runs.samples .counter),
    named "validation_duration_seconds" "Duration of a single validation in seconds"
      (m.validationDuration.samples .histogram),
    named "validations_total" "Total number of validated templates and components"
      (m.validations.samples .counter)]
  all.filter (!·.series.isEmpty)

end Metrics

/-! ## Text form -/

namespace MetricFamily

/-- A name that needs no quotes. -/
def isPlainName : Text → Bool
  | [] => false
  | b :: rest =>
    let isFirst (b : UInt8) := Text.isLetter b || b == '_' || b == ':'
    isFirst b && rest.all fun b => isFirst b || Text.isDigit b

/-- A label value or name between quotes. -/
def escaped (t : Text) : Text :=
  t.flatMap fun (b : UInt8) =>
    if b == '\\' then "\\\\"
    else if b == '\n' then "\\n"
    else if b == '"' then "\\\"" else [b]

/-- A name, in quotes where needed. -/
def shownName (t : Text) : Text := if isPlainName t then t else "\"" ++ escaped t ++ "\""

/-- The name of a series with its labels. -/
def shownSeries (name : Text) (labels : Labels) : Text :=
  let shown : List Text := labels.map fun (k, v) => shownName k ++ "=\"" ++ escaped v ++ "\""
  let inside := if isPlainName name then shown else shownName name :: shown
  let braces : Text := if inside.isEmpty then "" else "\x7b" ++ Text.join "," inside ++ "\x7d"
  if isPlainName name then name ++ braces else braces

def line (name : Text) (labels : Labels) (value : Text) : Text :=
  shownSeries name labels ++ " " ++ value ++ "\n"

/-- The lines of a series. -/
def sampleLines (name : Text) (labels : Labels) : Sample → Text
  | .counter n => line name labels (FloatStyle.general.render (.ofInt n))
  | .gauge x => line name labels (FloatStyle.general.render x)
  | .histogram h =>
    let bucket (bound : Text) (n : Nat) : Text :=
      line (name ++ "_bucket") (labels ++ [((Text.ofString "le"), bound)]) (Text.ofNat n)
    (h.buckets.flatMap fun (b, n) => bucket (FloatStyle.general.render b) n) ++
      bucket "+Inf" h.count ++
      line (name ++ "_sum") labels (FloatStyle.general.render h.sum) ++
      line (name ++ "_count") labels (Text.ofNat h.count)

/-- The word for the kind of a metric. -/
def kind (f : MetricFamily) : Text :=
  match f.series.head?.map Prod.snd with
  | some (.counter _) => "counter"
  | some (.gauge _) => "gauge"
  | some (.histogram _) => "histogram"
  | none => "untyped"

/-- The lines of a metric. -/
def text (f : MetricFamily) : Text :=
  "# HELP " ++ shownName f.name ++ " " ++ f.help ++ "\n" ++
    "# TYPE " ++ shownName f.name ++ " " ++ f.kind ++ "\n" ++
    f.series.flatMap fun (labels, sample) => sampleLines f.name labels sample

end MetricFamily

/-- All metrics as text. -/
def Metrics.text (m : Metrics) : Text := m.families.flatMap (·.text)

end TwigLint
