import TwigLint.Command.Lint
import TwigLint.Watch.Address
import TwigLint.Watch.Watcher

/-! # The watch command

Checks what is to be watched and runs once in full.  Waiting for changes is left to the outside.
-/

namespace TwigLint

namespace WatchCommand

/-- The name of the command in messages. -/
def name : Text := "watch"

/-- The configuration with the flags of the command. -/
def applyFlags (a : Arguments) (c : Config) : Config :=
  let debounce := a.duration "debounce"
  let address := Config.orElse (a.text "metrics-addr") c.metrics.address
  { c with
    watch := ⟨if 0 < debounce then debounce else c.watch.debounce,
      Config.orElse (a.text "schedule") c.watch.schedule⟩
    metrics := { c.metrics with address, enabled := c.metrics.enabled || !address.isEmpty }
    output := { c.output with format := Config.orElse (a.text "format") c.output.format } }

/-- The log records of the directories that are watched, up to a path that cannot be. -/
def watching (w : Workspace) : List Text → List LogRecord × Option WatchError
  | [] => ([], none)
  | path :: rest =>
    match w.find path with
    | .error fault => ([], some (.unreadable path ⟨"lstat", path, fault⟩))
    | .ok t =>
      let records := (Watcher.folders path t).map fun p =>
        ⟨.debug, "Watching directory", [(Text.ofString "path", .text p)]⟩
      let (more, e) := watching w rest
      (records ++ more, e)

/-- What starts the first run. -/
def startTrigger : Text := "start"

/-- The first run, which covers everything. -/
def firstRun (s : Session) (setup : LintCommand.Setup) (projects : List Text) :
    Except CommandError Outcome := do
  let (log, outcome) ←
    (LintCommand.runProjects s { setup with config.output.progress := false }
      ⟨projects, [], none, startTrigger⟩).mapError .crashed
  match outcome with
  | .error e =>
    let record : LogRecord := ⟨.error, "Validation failed",
      [("trigger", .text startTrigger), ("error", .text e.message)]⟩
    return .after (log ++ s.lines setup.logger [record]) (.printing [])
  | .ok f =>
    let shown := (f.report.filter setup.minSeverity).content
    return .after log (.printing ((setup.format.render? shown).getD []))

/-- Runs the command. -/
def execute (s : Session) (a : Arguments) : Except CommandError Outcome := do
  let c ← (s.config a).mapError (Session.configFailure name)
  let setup ← LintCommand.setup name "check the watch flags" (applyFlags a c)
  let c := setup.config
  let projects := if a.others.isEmpty then c.projects else a.others
  if !c.metrics.address.isEmpty then
    (Address.check c.metrics.address).mapError fun e =>
      .usage name
        (some (.other ("listen on " ++ c.metrics.address ++ ": listen tcp: " ++ e.message)))
        "choose another --metrics-addr"
  let (records, error?) := watching s.workspace projects
  let log := s.lines setup.logger records
  match error? with
  | some e => return .after log (.failing (.ofCause name (some (.other e.message))))
  | none =>
    match (Scheduler.new c.watch.schedule).start with
    | .error e => return .after log (.failing (.ofCause name (some (.other e.message))))
    | .ok _ => return .after log (← firstRun s setup projects)

end WatchCommand

end TwigLint
