import TwigLint.Command.Error
import TwigLint.Command.Flag
import TwigLint.Files.History
import TwigLint.Telemetry.Log
import TwigLint.Timestamp

/-! # Sessions

What a command can see of its surroundings, and what it leaves behind.
-/

namespace TwigLint

/-- The surroundings of a command.  Everything that is different each time is given here. -/
structure Session where
  workspace : Workspace
  environment : Environment
  /-- The standard input. -/
  input : Text
  history : Option History
  /-- A fresh identifier for a run, and one for a trace. -/
  runId : Text
  traceId : Text
  startedAt : Timestamp
  /-- The duration of a run in nanoseconds. -/
  duration : Int
  /-- The time as log lines show it. -/
  logTime : Text
  /-- Components per second as progress shows them. -/
  rate : Text
  /-- What the program was built with and for. -/
  toolchain : Text
  platform : Text

/-- What a command leaves behind. -/
structure Outcome where
  /-- The standard output. -/
  output : Text
  /-- Log lines and progress. -/
  log : Text
  /-- Files with their contents. -/
  files : List (Text × Text)
  error? : Option CommandError

namespace Outcome

/-- Success with some output. -/
def printing (t : Text) : Outcome := ⟨t, [], [], none⟩

/-- Failure without output. -/
def failing (e : CommandError) : Outcome := ⟨[], [], [], some e⟩

/-- The exit status. -/
def exitCode (o : Outcome) : Int := (o.error?.map (·.exitCode)).getD 0

/-- All that goes to the standard error output. -/
def errorOutput (o : Outcome) : Text := o.log ++ (o.error?.map (·.printed)).getD []

/-- Why the command broke off, if it did. -/
def crash? (o : Outcome) : Option Crash :=
  match o.error? with
  | some (.crashed c) => some c
  | _ => none

/-- The outcome with log lines in front. -/
def after (log : Text) (o : Outcome) : Outcome := { o with log := log ++ o.log }

end Outcome

namespace Session

/-- The configuration for a command: the file, the environment, and the global flags. -/
def config (s : Session) (a : Arguments) : Except ConfigError Config := do
  let c ← Config.load s.workspace s.environment (a.text "config")
  let level : Text :=
    if a.truth "verbose" then "debug" else Config.orElse (a.text "log-level") c.logging.level
  return { c with logging := { c.logging with
    level, format := Config.orElse (a.text "log-format") c.logging.format } }

/-- The failure of a command whose configuration cannot be loaded. -/
def configFailure (command : Text) (e : ConfigError) : CommandError :=
  match e.crash? with
  | some c => .crashed c
  | none =>
    .usage command (some (.other e.message)) "check the configuration file given with --config"

/-- Accepts a configuration that a command can use. -/
def accept (command hint : Text) (c : Config) : Except CommandError Unit :=
  c.validate.mapError fun
    | .invalid i => .usage command (some (.invalid i)) hint
    | .crashed crash => .crashed crash

/-- Log lines of records. -/
def lines (s : Session) (l : Logger) (rs : List LogRecord) : Text := rs.flatMap (l.write s.logTime)

end Session

end TwigLint
