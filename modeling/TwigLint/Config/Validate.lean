import TwigLint.Config.Basic
import TwigLint.Schedule

/-! # Validating a configuration

All settings that cannot be used are found together, in the order in which settings are documented.
-/

namespace TwigLint

/-- A setting that cannot be used. -/
structure FieldError where
  field : Text
  message : Text
  deriving DecidableEq, Repr

/-- The settings of a configuration that cannot be used. -/
structure InvalidConfig where
  errors : List FieldError
  deriving DecidableEq, Repr

/-- Why a configuration cannot be used. -/
inductive Unusable where
  | invalid (c : InvalidConfig)
  | crashed (c : Crash)

def FieldError.render (e : FieldError) : Text := e.field ++ ": " ++ e.message

/-- The message for settings that cannot be used; several are listed one per line. -/
def InvalidConfig.message (c : InvalidConfig) : Text :=
  match c.errors with
  | [] => "configuration validation failed"
  | [e] => "configuration validation failed: " ++ e.render
  | es =>
    let lines : List Text := es.map fun e => "  - " ++ e.render ++ "\n"
    "configuration validation failed with " ++ Text.ofNat es.length ++ " errors:\n" ++ lines.flatten

namespace Config

/-- An error when a condition holds. -/
def errorIf (bad : Bool) (field message : Text) : List FieldError :=
  if bad then [⟨field, message⟩] else []

/-- Errors of the items of a list, which are named by their positions. -/
def itemErrors (field : Text) (items : List Text) (complaint : Text → Option Text) :
    List FieldError :=
  items.zipIdx.filterMap fun (t, i) =>
    (complaint t).map fun message => ⟨field ++ "[" ++ Text.ofNat i ++ "]", message⟩

/-- Nothing but white space. -/
def isBlank (t : Text) : Bool := t.trimSpace.isEmpty

/-- Words with commas between them. -/
def listed (words : List Text) : Text := Text.join ", " words

def projectErrors (c : Config) : List FieldError :=
  errorIf c.projects.isEmpty "projects" "at least one project directory is required" ++
    itemErrors "projects" c.projects fun t =>
      if isBlank t then some "project directory is empty" else none

def workerErrors (c : Config) : List FieldError :=
  match c.workers with
  | .count n => errorIf (n < 1) "workers" "workers must be at least 1"
  | .perProcessor => []

def lintErrors (c : LintConfig) : List FieldError :=
  let tables := Rules.tableNames
  errorIf c.failOnSeverity?.isNone "lint.fail_on"
      (Severity.invalidMessage c.failOn ++ ", or 'none'") ++
    errorIf c.minSeverity?.isNone "lint.min_severity" (Severity.invalidMessage c.minSeverity) ++
    (itemErrors "lint.disabled_rules" c.options.disabledRules fun t =>
      if Rules.allNames.contains t then none
      else some ("unknown rule " ++ t.quoted ++ " (valid: " ++ listed Rules.allNames ++ ")")) ++
    ((Text.sort (c.options.policies.map (·.1))).filter (!tables.contains ·)).map (fun t =>
      ⟨"lint.policies." ++ t, "rule has no name table (valid: " ++ listed tables ++ ")"⟩) ++
    itemErrors "lint.known_variables" c.options.knownVariables fun t =>
      if isBlank t then some "variable name is empty" else none

/-- The output formats. -/
def formatNames : List Text := ["table", "text", "json", "csv"]

def outputErrors (c : OutputConfig) : List FieldError :=
  errorIf (!formatNames.contains c.format) "output.format"
    ("invalid output format " ++ c.format.quoted ++ ": must be one of " ++ listed formatNames)

/-- Log levels and log formats. -/
def levelNames : List Text := ["debug", "info", "warn", "error"]

def logFormatNames : List Text := ["json", "text", "console"]

def loggingErrors (c : LoggingConfig) : List FieldError :=
  (if c.level.isEmpty then errorIf true "logging.level" "logging level is required"
    else errorIf (!levelNames.contains c.level) "logging.level"
      ("invalid logging level " ++ c.level.quoted ++
        ": must be 'debug', 'info', 'warn', or 'error'")) ++
  (if c.format.isEmpty then errorIf true "logging.format" "logging format is required"
    else errorIf (!logFormatNames.contains c.format) "logging.format"
      ("invalid logging format " ++ c.format.quoted ++ ": must be 'json', 'text', or 'console'"))

/-- Some number is not greater than the one before it. -/
def hasDescent : List Double → Bool
  | x :: y :: rest => y.le x || hasDescent (y :: rest)
  | _ => false

def metricsErrors (c : MetricsConfig) : List FieldError :=
  errorIf (c.enabled && !c.path.startsWith "/") "metrics.path" "metrics path must start with '/'" ++
    errorIf (hasDescent c.durationBuckets) "metrics.duration_buckets"
      "buckets must be in increasing order"

/-- The ways to sample traces. -/
def samplerNames : List Text := ["always", "never", "ratio"]

def tracingErrors (c : TracingConfig) : List FieldError :=
  errorIf (c.enabled && c.endpoint.isEmpty) "tracing.endpoint"
      "tracing endpoint is required when tracing is enabled" ++
    errorIf (!samplerNames.contains c.sampler) "tracing.sampler"
      ("invalid sampler " ++ c.sampler.quoted ++ ": must be 'always', 'never', or 'ratio'") ++
    errorIf (c.sampleRatio.lt .zero || (Double.ofInt 1).lt c.sampleRatio) "tracing.sample_ratio"
      "sample ratio must be between 0.0 and 1.0" ++
    errorIf (c.timeout < 0) "tracing.timeout" "timeout must not be negative"

def watchErrors (c : WatchConfig) : List FieldError :=
  errorIf (c.debounce < 0) "watch.debounce" "debounce must not be negative" ++
    if c.schedule.isEmpty then []
    else
      match Schedule.parse c.schedule with
      | .ok _ => []
      | .error fault =>
        [⟨"watch.schedule",
          "invalid cron expression " ++ c.schedule.quoted ++ ": " ++ fault.message⟩]

/-- Why looking at the settings breaks off, if it does. -/
def crash? (c : Config) : Option Crash :=
  match Schedule.parse c.watch.schedule with
  | .error (.crashed crash) => some crash
  | _ => none

/-- All settings that cannot be used. -/
def errors (c : Config) : List FieldError :=
  projectErrors c ++ workerErrors c ++ lintErrors c.lint ++ outputErrors c.output ++
    loggingErrors c.logging ++ metricsErrors c.metrics ++ tracingErrors c.tracing ++
    watchErrors c.watch

/-- Accepts a configuration that can be used. -/
def validate (c : Config) : Except Unusable Unit :=
  match crash? c with
  | some crash => .error (.crashed crash)
  | none => if (errors c).isEmpty then .ok () else .error (.invalid ⟨errors c⟩)

end Config

end TwigLint
