import TwigLint.Lint.Validator
import TwigLint.Number.Double

/-! # Configuration

The settings of a run, and the values they have when nothing is set.  A setting that is empty or
zero counts as not set.
-/

namespace TwigLint

/-- How many components are checked at the same time. -/
inductive Workers where
  | count (n : Int)
  | perProcessor
  deriving DecidableEq, Repr

/-- What is checked, which findings are shown, and which of them make a run fail. -/
structure LintConfig where
  failOn : Text
  minSeverity : Text
  options : LintOptions

structure OutputConfig where
  format : Text
  progress : Bool

structure LoggingConfig where
  level : Text
  format : Text
  addSource : Bool

structure MetricsConfig where
  enabled : Bool
  nameSpace : Text
  subsystem : Text
  /-- A file that receives the metrics after each run. -/
  textfile : Text
  /-- The address at which a watching run serves the metrics. -/
  address : Text
  path : Text
  /-- Upper bounds of the duration histogram, in seconds. -/
  durationBuckets : List Double

structure TracingConfig where
  enabled : Bool
  sampler : Text
  sampleRatio : Double
  endpoint : Text
  insecure : Bool
  /-- In nanoseconds. -/
  timeout : Int
  serviceName : Text

structure WatchConfig where
  /-- How long changes are collected, in nanoseconds. -/
  debounce : Int
  /-- When full runs take place; empty for never. -/
  schedule : Text

/-- All settings. -/
structure Config where
  projects : List Text
  lint : LintConfig
  output : OutputConfig
  logging : LoggingConfig
  metrics : MetricsConfig
  tracing : TracingConfig
  watch : WatchConfig
  workers : Workers

namespace Config

/-- The configuration in which nothing is set. -/
def unset : Config where
  projects := []
  lint := ⟨[], [], .default⟩
  output := ⟨[], false⟩
  logging := ⟨[], [], false⟩
  metrics := ⟨false, [], [], [], [], [], []⟩
  tracing := ⟨false, [], .zero, [], false, 0, []⟩
  watch := ⟨0, []⟩
  workers := .count 0

/-- The value, or another one when it is empty. -/
def orElse (t other : Text) : Text := if t.isEmpty then other else t

/-- The number, or another one when it is zero. -/
def orNumber (n other : Int) : Int := if n = 0 then other else n

/-- The bounds of the duration histogram when none are set. -/
def defaultBuckets : List Double :=
  [(5, 10000), (1, 1000), (5, 1000), (1, 100), (5, 100), (1, 10), (5, 10), (1, 1)].map
    fun (num, den) => .ofRatio false num den

/-- The configuration with the default of every setting that is not set. -/
def withDefaults (c : Config) : Config where
  projects := if c.projects.isEmpty then [Text.ofString "."] else c.projects
  lint := {
    failOn := orElse c.lint.failOn "error"
    minSeverity := orElse c.lint.minSeverity "debug"
    options := { c.lint.options with
      excerptLength := orNumber c.lint.options.excerptLength LintOptions.defaultExcerptLength } }
  output := { c.output with format := orElse c.output.format "table" }
  logging := { c.logging with
    level := orElse c.logging.level "info"
    format := orElse c.logging.format "console" }
  metrics := { c.metrics with
    nameSpace := orElse c.metrics.nameSpace "sdclint"
    subsystem := orElse c.metrics.subsystem "lint"
    path := orElse c.metrics.path "/metrics"
    durationBuckets :=
      if c.metrics.durationBuckets.isEmpty then defaultBuckets else c.metrics.durationBuckets }
  tracing := { c.tracing with
    sampler := orElse c.tracing.sampler "always"
    sampleRatio :=
      if c.tracing.sampleRatio.rank = 0 then .ofInt 1 else c.tracing.sampleRatio
    timeout := orNumber c.tracing.timeout 10000000000
    serviceName := orElse c.tracing.serviceName "sdclint" }
  watch := { c.watch with debounce := orNumber c.watch.debounce 300000000 }
  workers :=
    match c.workers with
    | .count n => if n ≤ 0 then .perProcessor else .count n
    | .perProcessor => .perProcessor

end Config

namespace LintConfig

/-- The word for a run that never fails because of its findings. -/
def isNever (t : Text) : Bool := t.map Text.toLower == "none"

/-- The severity from which on a run fails, `none` inside when it never does. -/
def failOnSeverity? (c : LintConfig) : Option (Option Severity) :=
  if isNever c.failOn then some none else (Severity.read? c.failOn).map some

/-- The severity from which on findings are shown. -/
def minSeverity? (c : LintConfig) : Option Severity := Severity.read? c.minSeverity

end LintConfig

end TwigLint
