import TwigLint.Config.Read
import TwigLint.Config.Validate
import TwigLint.Files.Tree

/-! # Loading a configuration

A configuration comes from a file, with the defaults for what the file leaves open.  Variables of
the environment win over the file.
-/

namespace TwigLint

/-- Variables with their values. -/
abbrev Environment := List (Text × Text)

namespace Environment

/-- The value of a variable; an empty value counts as none. -/
def get? (env : Environment) (name : Text) : Option Text :=
  (env.lookup name).filter (!·.isEmpty)

/-- A truth value. -/
def truth? (t : Text) : Option Bool :=
  if ["1", "t", "T", "TRUE", "true", "True"].any fun w => Text.ofString w == t then some true
  else if ["0", "f", "F", "FALSE", "false", "False"].any fun w => Text.ofString w == t then
    some false
  else none

/-- The items of a list with commas, without white space around them. -/
def items (t : Text) : List Text := ((t.splitOn ',').map Text.trimSpace).filter (!·.isEmpty)

end Environment

/-- Why a configuration cannot be loaded. -/
inductive ConfigError where
  | unreadable (path : Text) (e : FileError)
  | malformed (path : Text) (e : Yaml.Error)
  | invalid (c : InvalidConfig)
  | overridden (c : InvalidConfig)
  | crashed (c : Crash)

/-- The message of an error. -/
def ConfigError.message : ConfigError → Text
  | .unreadable path e => "failed to read configuration file " ++ path.quoted ++ ": " ++ e.message
  | .malformed path e => "failed to parse configuration file " ++ path.quoted ++ ": " ++ e.message
  | .invalid c => "configuration validation failed: " ++ c.message
  | .overridden c => "configuration validation failed after environment overrides: " ++ c.message
  | .crashed c => c.message

/-- Why the loading broke off, if it did. -/
def ConfigError.crash? : ConfigError → Option Crash
  | .malformed _ e => e.crash?
  | .crashed c => some c
  | _ => none

namespace Config

/-- Changes a configuration by the value of a variable, if it has one that can be read. -/
def override {α : Type} (env : Environment) (name : Text) (read : Text → Option α)
    (put : Config → α → Config) (c : Config) : Config :=
  match (env.get? name).bind read with
  | some a => put c a
  | none => c

/-- The configuration with what the environment sets. -/
def withEnvironment (env : Environment) (c : Config) : Config :=
  let set {α : Type} (name : Text) (read : Text → Option α) (put : Config → α → Config) :=
    override env name read put
  let steps : List (Config → Config) := [
    set "SDCLINT_PROJECTS" (some ∘ Environment.items) fun c ns => { c with projects := ns },
    set "SDCLINT_WORKERS" Text.toInt64? fun c n => { c with workers := .count n },
    set "SDCLINT_FAIL_ON" some fun c t => { c with lint.failOn := t },
    set "SDCLINT_MIN_SEVERITY" some fun c t => { c with lint.minSeverity := t },
    set "SDCLINT_REPORT_UNUSED_INPUTS" Environment.truth? fun c b =>
      { c with lint.options.reportUnusedInputs := b },
    set "SDCLINT_KNOWN_VARIABLES" (some ∘ Environment.items) fun c ns =>
      { c with lint.options.knownVariables := c.lint.options.knownVariables ++ ns },
    set "SDCLINT_DISABLED_RULES" (some ∘ Environment.items) fun c ns =>
      { c with lint.options.disabledRules := c.lint.options.disabledRules ++ ns },
    set "SDCLINT_OUTPUT_FORMAT" some fun c t => { c with output.format := t },
    set "SDCLINT_LOGGING_LEVEL" some fun c t => { c with logging.level := t },
    set "SDCLINT_LOGGING_FORMAT" some fun c t => { c with logging.format := t },
    set "SDCLINT_METRICS_ENABLED" Environment.truth? fun c b => { c with metrics.enabled := b },
    set "SDCLINT_METRICS_TEXTFILE" some fun c t => { c with metrics.textfile := t },
    set "SDCLINT_METRICS_ADDRESS" some fun c t => { c with metrics.address := t },
    set "SDCLINT_TRACING_ENABLED" Environment.truth? fun c b => { c with tracing.enabled := b },
    set "SDCLINT_TRACING_ENDPOINT" some fun c t => { c with tracing.endpoint := t },
    set "SDCLINT_TRACING_INSECURE" Environment.truth? fun c b => { c with tracing.insecure := b },
    set "SDCLINT_TRACING_SAMPLE_RATIO" Double.read? fun c x => { c with tracing.sampleRatio := x },
    set "SDCLINT_WATCH_DEBOUNCE" Duration.read? fun c n => { c with watch.debounce := n },
    set "SDCLINT_WATCH_SCHEDULE" some fun c t => { c with watch.schedule := t }]
  steps.foldl (fun c step => step c) c

/-- The file that is read when none is named. -/
def defaultFile : Text := ".sdclint.yaml"

/-- Accepts a configuration that can be used; `refused` is the error for one that is invalid. -/
def accept (refused : InvalidConfig → ConfigError) (c : Config) : Except ConfigError Unit :=
  c.validate.mapError fun
    | .invalid i => refused i
    | .crashed crash => .crashed crash

/-- The configuration in a file, with defaults, if it can be used. -/
def loadFile (w : Workspace) (path : Text) : Except ConfigError Config := do
  let source ← (w.read path).mapError (.unreadable path)
  let c ← (parse source).mapError (.malformed path)
  let c := c.withDefaults
  accept .invalid c
  return c

/-- The configuration in a file, or that in the default file, which need not exist. -/
def loadBase (w : Workspace) (path : Text) : Except ConfigError Config :=
  if !path.isEmpty then loadFile w path
  else
    match loadFile w defaultFile with
    | .error (.unreadable p e) =>
      if e.fault == .missing then .ok unset.withDefaults else .error (.unreadable p e)
    | result => result

/-- The configuration of a run: the file, then the environment. -/
def load (w : Workspace) (env : Environment) (path : Text) : Except ConfigError Config := do
  let c := (← loadBase w path).withEnvironment env
  accept .overridden c
  return c

end Config

end TwigLint
