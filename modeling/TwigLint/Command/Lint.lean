import TwigLint.Command.Session
import TwigLint.Output.Progress
import TwigLint.Project.Run
import TwigLint.Telemetry.Metrics
import TwigLint.Telemetry.Trace

/-! # The lint command

Validates the components of projects, or a single template from the standard input, and prints a
report.  The command fails when a finding is severe enough.
-/

namespace TwigLint

namespace LintCommand

/-- The name of the command in messages. -/
def name : Text := "lint"

/-- The identifier of a template from the standard input. -/
def inputId : Text := "stdin"

/-- The number of a flag if it is positive. -/
def workersOf (n : Int) (other : Workers) : Workers := if 0 < n then .count n else other

/-- The configuration with the flags of the command. -/
def applyFlags (a : Arguments) (c : Config) : Config :=
  let o := c.lint.options
  let textfile := Config.orElse (a.text "metrics-file") c.metrics.textfile
  { c with
    workers := workersOf (a.number "workers") c.workers
    output := ⟨Config.orElse (a.text "format") c.output.format,
      c.output.progress || a.truth "progress"⟩
    lint := {
      failOn := Config.orElse (a.text "fail-on") c.lint.failOn
      minSeverity := Config.orElse (a.text "min-severity") c.lint.minSeverity
      options := { o with
        reportUnusedInputs := o.reportUnusedInputs || a.truth "report-unused-inputs"
        knownVariables := o.knownVariables ++ a.texts "known-variable"
        disabledRules := o.disabledRules ++ a.texts "disable-rule" } }
    metrics := { c.metrics with textfile, enabled := c.metrics.enabled || !textfile.isEmpty } }

/-- What a command needs for its runs. -/
structure Setup where
  config : Config
  format : OutputFormat
  failOn : Option Severity
  minSeverity : Severity
  logger : Logger
  validator : Validator

/-- Prepares the runs of a command from a configuration. -/
def setup (command hint : Text) (c : Config) : Except CommandError Setup := do
  let usage (e : CommandError) (hint : Text) : CommandError := .usage command (some e) hint
  Session.accept command hint c
  let some format := OutputFormat.read? c.output.format
    | throw (usage (.setting "format" (OutputFormat.unknownMessage c.output.format)) [])
  let some failOn := c.lint.failOnSeverity?
    | throw (usage (.other (Severity.invalidMessage c.lint.failOn)) [])
  let some minSeverity := c.lint.minSeverity?
    | throw (usage (.other (Severity.invalidMessage c.lint.minSeverity)) [])
  let settings : Text := "check the logging and tracing settings"
  let logger ← (Logger.new c.logging.level c.logging.format).mapError fun e =>
    usage (.other ("create logger: " ++ e.message)) settings
  if c.tracing.enabled then
    (checkSampler c.tracing.sampler c.tracing.sampleRatio).mapError fun e =>
      usage (.other ("create tracer: failed to create sampler: " ++ e.message)) settings
  let validator ← (Validator.ofOptions c.lint.options).mapError fun e =>
    usage (.other ("build rules: " ++ e.message))
      "check the lint.policies and lint.disabled_rules settings"
  return ⟨c, format, failOn, minSeverity, logger, validator⟩

/-- The trace that a run belongs to, empty for none. -/
def traceId (s : Session) (c : Config) : Text :=
  let parent := (s.environment.get? "TRACEPARENT").getD []
  match TraceContext.read? parent ((s.environment.get? "TRACESTATE").getD []) with
  | some t => t.traceId
  | none => if c.tracing.enabled then s.traceId else []

/-- The absolute paths of the definitions changed since a revision in any of some projects. -/
def changedSince (s : Session) (projects : List Text) (revision : Text) :
    Except CommandError (List Text) := do
  let changed ← projects.mapM fun dir =>
    (do (← History.enclosing s.history s.workspace dir).changedFiles s.workspace revision).mapError
      fun (e : HistoryError) => CommandError.usage name (some (.other e.message))
        "--changed-since needs a git repository and a valid revision"
  return (changed.flatMap Component.definitionsOf).eraseDups

/-- The progress bar and the log lines of an event, in the order in which they are written. -/
def eventText (s : Session) (setup : Setup) (scope : LogScope) (e : RunEvent) :
    Except Crash Text := do
  let log := s.lines setup.logger (e.records scope s.duration)
  match e with
  | .validated _ _ done total =>
    if !setup.config.output.progress then return log
    let first ← if done = 1 then (Progress.mk total 0).line s.rate else pure []
    return log ++ first ++ (← (Progress.mk total done).line s.rate)
  | _ => return log

/-- The metrics of an event. -/
def recordEvent (s : Session) (failOn : Option Severity) (trigger : Text) (results : List Result)
    (m : Metrics) : RunEvent → Except Crash Metrics
  | .validated result report _ _ => do
    let m := report.failures.foldl (fun m f => m.recordFailure f.rule) m
    m.recordValidation "component" result.diagnostics s.duration
  | .finished components _ =>
    let failed := failOn.any fun threshold =>
      results.any fun r => Diagnostic.anyAtLeast threshold r.diagnostics
    m.recordRun trigger components failed s.duration (.ofInt s.startedAt.epochSeconds)
  | _ => .ok m

/-- A report on results. -/
def reportOn (s : Session) (trigger : Text) (results : List Result) : Report :=
  ⟨s.runId, trigger, s.startedAt, s.duration, results⟩

/-- What is written after a run, with the progress bar ended. -/
def ending (s : Session) (setup : Setup) (outcome : Except RunError (List Result)) :
    Except Crash Text := do
  if !setup.config.output.progress then return []
  match outcome with
  | .error e => return Progress.errorLine e.message
  | .ok [] => return []
  | .ok results => (Progress.mk results.length 0).lastLine s.rate

/-- The failure of a run. -/
def runFailure (command : Text) (e : RunError) : CommandError :=
  match e, e.crash? with
  | _, some c => .crashed c
  | .notFound _, none =>
    .usage command (some (.other e.message)) "use provider:name or the bare component name"
  | _, none => .ofCause command (some (.other e.message))

/-- A report with the metrics of its run. -/
structure Finished where
  report : Report
  metrics : Metrics

/-- Runs over projects: what is written on the way, and the report. -/
def runProjects (s : Session) (setup : Setup) (r : RunRequest) :
    Except Crash (Text × Except RunError Finished) := do
  let scope : LogScope := ⟨s.runId, [], [], traceId s setup.config⟩
  let (events, outcome) := Run.results s.workspace setup.validator false r
  let written ← events.mapM (eventText s setup scope)
  let log := written.flatten ++ (← ending s setup outcome)
  match outcome with
  | .error e => return (log, .error e)
  | .ok results =>
    let metrics ← events.foldlM (recordEvent s setup.failOn r.trigger results)
      (Metrics.new setup.config.metrics)
    return (log, .ok ⟨reportOn s r.trigger results, metrics⟩)

/-- Validates the standard input. -/
def runInput (s : Session) (setup : Setup) (componentId : Text) :
    Except Crash (Text × Finished) := do
  let id := Config.orElse componentId inputId
  let checked ← setup.validator.checkSource s.input
  let found := checked.diagnostics.map (·.withId id)
  let metrics := checked.failures.foldl (fun m f => m.recordFailure f.rule)
    (Metrics.new setup.config.metrics)
  return (s.lines setup.logger (checked.records []),
    ⟨reportOn s RunRequest.defaultTrigger [⟨id, [], [], found⟩],
      ← metrics.recordValidation "source" found s.duration⟩)

/-- The outcome of a finished run: the report, the metrics file, and whether the run failed. -/
def finish (setup : Setup) (f : Finished) : Outcome :=
  let shown := (f.report.filter setup.minSeverity).content
  let files :=
    if setup.config.metrics.textfile.isEmpty then []
    else [(setup.config.metrics.textfile, f.metrics.text)]
  match setup.format.render? shown with
  | none => .failing (.ofCause name (some (.other OutputFormat.notTabularMessage)))
  | some output =>
    let failed := setup.failOn.any fun threshold => f.report.failed threshold
    ⟨output, [], files, if failed then some .lintFailed else none⟩

/-- Validates the projects that the arguments or the configuration name. -/
def lintProjects (s : Session) (setup : Setup) (a : Arguments) : Except CommandError Outcome := do
  let projects := if a.others.isEmpty then setup.config.projects else a.others
  let revision := a.text "changed-since"
  let only ← if revision.isEmpty then pure none else some <$> changedSince s projects revision
  let notes : List LogRecord := match only with
    | none => []
    | some paths =>
      [⟨.debug, "Changed components", [("revision", .text revision),
        ("count", .int paths.length)]⟩]
  let request : RunRequest := ⟨projects, a.text "component", only, RunRequest.defaultTrigger⟩
  let (log, outcome) ← (runProjects s setup request).mapError .crashed
  let log := s.lines setup.logger notes ++ log
  match outcome with
  | .error e => return .after log (.failing (runFailure name e))
  | .ok f => return .after log (finish setup f)

/-- Validates the standard input. -/
def lintInput (s : Session) (setup : Setup) (a : Arguments) : Except CommandError Outcome := do
  let (log, f) ← (runInput s setup (a.text "component")).mapError .crashed
  return .after log (finish setup f)

/-- Runs the command. -/
def execute (s : Session) (a : Arguments) : Except CommandError Outcome := do
  let c ← (s.config a).mapError (Session.configFailure name)
  let setup ← setup name "check the lint flags" (applyFlags a c)
  if a.others == [Text.ofString "-"] then lintInput s setup a else lintProjects s setup a

end LintCommand

end TwigLint
