import TwigLint.Component.Load
import TwigLint.Lint.Validator
import TwigLint.Project.Pool
import TwigLint.Project.Report

/-! # Runs

A run finds the components of some projects and validates those that are asked for.  What happens on
the way is a list of events, from which log lines and progress are made.
-/

namespace TwigLint

/-- What a run validates. -/
structure RunRequest where
  /-- The directories that are searched. -/
  projects : List Text
  /-- The identifier or the bare name of a component; empty for all. -/
  componentId : Text
  /-- Absolute paths of the definitions to validate; none for all. -/
  only : Option (List Text)
  /-- What started the run. -/
  trigger : Text

/-- What starts a run when nothing else is said. -/
def RunRequest.defaultTrigger : Text := "cli"

/-- Why a run has no report. -/
inductive RunError where
  | cancelled
  | discover (e : DiscoverError)
  | notFound (id : Text)
  | crashed (c : Crash)

def RunError.message : RunError → Text
  | .cancelled => "context canceled"
  | .discover e => e.message
  | .notFound id => Definition.notFoundMessage id
  | .crashed c => c.message

/-- Why the run broke off, if it did. -/
def RunError.crash? : RunError → Option Crash
  | .discover e => e.crash?
  | .crashed c => some c
  | _ => none

/-- What happens in a run. -/
inductive RunEvent where
  /-- A project is searched. -/
  | searching (project provider : Text)
  /-- A project has no components. -/
  | nothingFound (project provider : Text)
  /-- A component was validated; `done` of `total` components are now. -/
  | validated (result : Result) (report : ComponentReport) (done total : Nat)
  /-- All components were validated. -/
  | finished (components diagnostics : Nat)

namespace Run

/-- A component to validate, and the project in which it was found. -/
structure Job where
  project : Text
  definition : Definition

/-- The component is asked for.  An identifier without a provider is a name in any project. -/
def matchesId (id : Text) (d : Definition) : Bool :=
  if id.isEmpty then true
  else if id.includes ":" then d.id == id
  else d.name == id

/-- The definition is among the paths asked for. -/
def isSelected (w : Workspace) (only : Option (List Text)) (d : Definition) : Bool :=
  match only with
  | none => true
  | some paths => paths.contains (w.absolute d.path)

/-- All components of some projects, with what happens on the way. -/
def search (w : Workspace) (cancelled : Bool) :
    List Text → List RunEvent × Except RunError (List Job)
  | [] => ([], .ok [])
  | project :: rest =>
    if cancelled then ([], .error .cancelled)
    else
      let provider := Definition.providerOf w project
      match Definition.discover w project provider with
      | .error e => ([.searching project provider], .error (.discover e))
      | .ok ds =>
        let (events, jobs) := search w cancelled rest
        let none? := if ds.isEmpty then [RunEvent.nothingFound project provider] else []
        (.searching project provider :: none? ++ events,
          jobs.map fun js => ds.map (Job.mk project) ++ js)

/-- The jobs of a request among all components found. -/
def select (w : Workspace) (r : RunRequest) (jobs : List Job) : Except RunError (List Job) :=
  let asked := jobs.filter fun j => matchesId r.componentId j.definition
  if !r.componentId.isEmpty && asked.isEmpty then .error (.notFound r.componentId)
  else .ok (asked.filter fun j => isSelected w r.only j.definition)

/-- Validates one component. -/
def validateOne (v : Validator) (j : Job) : Except Crash (Result × ComponentReport) := do
  let report ← v.checkComponent j.definition.id j.definition
  return (⟨j.definition.id, j.project, j.definition.path, report.diagnostics⟩, report)

/-- What comes of the jobs of a run. -/
def outcome (s : Pool.State Job (Result × ComponentReport) Crash) :
    Except RunError (List (Result × ComponentReport)) :=
  match s.crash with
  | some c => .error (.crashed c)
  | none =>
    match s.results? with
    | none => .error .cancelled
    | some validated => .ok validated

/-- Validates components. -/
def validate (v : Validator) (cancelled : Bool) (jobs : List Job) :
    Except RunError (List (Result × ComponentReport)) :=
  outcome ((Pool.State.initial jobs cancelled).run 1 (validateOne v) (Pool.inOrder jobs.length))

/-- The events of validated components. -/
def validatedEvents (validated : List (Result × ComponentReport)) : List RunEvent :=
  validated.zipIdx.map fun ((result, report), i) =>
    .validated result report (i + 1) validated.length

/-- The results of a run, in the order in which the components were found, and its events. -/
def results (w : Workspace) (v : Validator) (cancelled : Bool) (r : RunRequest) :
    List RunEvent × Except RunError (List Result) :=
  let (events, jobs) := search w cancelled r.projects
  match jobs.bind (select w r) with
  | .error e => (events, .error e)
  | .ok jobs =>
    match validate v cancelled jobs with
    | .error e => (events, .error e)
    | .ok validated =>
      let results := validated.map Prod.fst
      let found := results.foldl (fun n r => n + r.diagnostics.length) 0
      (events ++ validatedEvents validated ++ [.finished results.length found], .ok results)

end Run

/-! ## Log records of a run -/

/-- The log records of an event.  `scope` has the run and the trace; times are in nanoseconds. -/
def RunEvent.records (scope : LogScope) (elapsed : Int) : RunEvent → List LogRecord
  | .searching project provider =>
    [⟨.info, "Start validation of " ++ provider ++ "...", { scope with project }.fields⟩]
  | .nothingFound project provider =>
    [⟨.warn, "No components found for " ++ provider ++ ", is it the right directory?",
      { scope with project }.fields⟩]
  | .validated result report _ _ =>
    let fields : List (Text × Data) := [("diagnostics", .int result.diagnostics.length),
      ("duration_ms", .int (elapsed.tdiv 1000000))]
    report.records result.id ++
      [⟨.debug, "Component validated", { scope with component := result.id }.fields ++ fields⟩]
  | .finished components diagnostics =>
    let fields : List (Text × Data) := [("components", .int components),
      ("diagnostics", .int diagnostics), ("duration_ms", .int (elapsed.tdiv 1000000))]
    [⟨.info, "Validation finished", scope.fields ++ fields⟩]

end TwigLint
