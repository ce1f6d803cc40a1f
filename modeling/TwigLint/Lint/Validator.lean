import TwigLint.Lint.Schema
import TwigLint.Lint.Rules.Default
import TwigLint.Template.Parser.Statement

/-! # Validation

A validator lints bare templates and components.  A template that does not parse has one critical
finding; any other is walked by the rules and then checked for unused variables.
-/

namespace TwigLint

/-- The settings of a lint run. -/
structure LintOptions where
  policies : Rules.Overlays
  disabledRules : List Text
  knownVariables : List Text
  reportUnusedInputs : Bool
  /-- Lines of source per finding; zero stands for the default, a negative number for none. -/
  excerptLength : Int

namespace LintOptions

def default : LintOptions := ⟨[], [], [], false, 0⟩

/-- Lines of source per finding when none is set. -/
def defaultExcerptLength : Int := 1

end LintOptions

structure Validator where
  registry : Registry
  /-- Depth limit of the parser. -/
  limit : Nat
  known : List Text
  reportUnusedInputs : Bool
  /-- Definitions are checked. -/
  checksSchema : Bool
  /-- Lines of source per finding; none when not positive. -/
  excerptLength : Int
  disabled : List Text

/-- What validating a template found. -/
structure TemplateReport where
  diagnostics : List Diagnostic
  /-- The error when the template does not parse. -/
  syntaxError : Option SyntaxError
  failures : List Failure

/-- The log records of validating the template of a component. -/
def TemplateReport.records (id : Text) (r : TemplateReport) : List LogRecord :=
  match r.syntaxError with
  | some e =>
    [⟨.debug, "template parse failed", [("component", .text id), ("line", .int e.location.line),
      ("error", .text e.message)]⟩]
  | none =>
    r.failures.map (·.record id) ++
      [⟨.debug, "template validated", [("component", .text id),
        ("diagnostics", .int r.diagnostics.length)]⟩]

/-- What validating a component or a bare template found, in the order in which it is shown. -/
structure ComponentReport where
  diagnostics : List Diagnostic
  /-- The report on the template, when there is one. -/
  template : Option TemplateReport

/-- The rules that broke off. -/
def ComponentReport.failures (r : ComponentReport) : List Failure :=
  (r.template.map (·.failures)).getD []

/-- The log records of validating a component. -/
def ComponentReport.records (id : Text) (r : ComponentReport) : List LogRecord :=
  match r.template with
  | some t => t.records id
  | none => [⟨.debug, "component has no template", [("component", .text id)]⟩]

namespace Validator

/-- A validator with the given rules and otherwise default settings. -/
def ofRegistry (registry : Registry) (disabled : List Text) : Validator :=
  ⟨registry, Parser.defaultDepth, [], false, true, LintOptions.defaultExcerptLength, disabled⟩

/-- The validator for the given settings. -/
def ofOptions (o : LintOptions) : Except Rules.SetupError Validator := do
  let registry ← Rules.registry o.policies o.disabledRules
  let excerpt :=
    if o.excerptLength = 0 then LintOptions.defaultExcerptLength
    else if o.excerptLength < 0 then 0 else o.excerptLength
  return ⟨registry, Parser.defaultDepth, o.knownVariables, o.reportUnusedInputs, true, excerpt,
    o.disabledRules⟩

def engine (v : Validator) : Engine := ⟨v.registry, v.disabled⟩

/-- The context in which the root of a template is visited. -/
def context (v : Validator) (id : Text) (inputs : List Input) : Context :=
  let tracker :=
    Tracker.new (inputs.map (·.name)) Tracker.defaultInjected v.reportUnusedInputs
  ⟨id, inputs, some (v.known.foldl Tracker.inject tracker), [], []⟩

/-- The findings with their lines of source. -/
def excerpted (v : Validator) (source : Text) (ds : List Diagnostic) :
    Except Crash (List Diagnostic) :=
  if 0 < v.excerptLength then Diagnostic.withExcerpts source v.excerptLength ds else .ok ds

/-- The finding about a template that does not parse. -/
def parseFailure (id : Text) (e : SyntaxError) : Diagnostic :=
  { Diagnostic.inTemplate id e.location .critical e.message with rule := "parse" }

/-- The findings about a tree. -/
def checkTree (v : Validator) (id : Text) (inputs : List Input) (root : Node) :
    List Diagnostic × List Failure :=
  let (scope, runs) := v.engine.walk (v.context id inputs) root
  let found := runs.flatMap (·.diagnostics id)
  let unused :=
    if v.disabled.contains Rules.unusedName then [] else Rules.unusedVariables id scope
  (found ++ unused, runs.filterMap CheckRun.failure?)

/-- Validates a template with the given inputs. -/
def checkTemplate (v : Validator) (id source : Text) (inputs : List Input) :
    Except Crash TemplateReport := do
  match parseTemplate v.limit source with
  | .error e => return ⟨← v.excerpted source [parseFailure id e], some e, []⟩
  | .ok root =>
    let (found, failures) := v.checkTree id inputs root
    return ⟨← v.excerpted source found, none, failures⟩

/-- Duplicates dropped and sorted. -/
def arranged (ds : List Diagnostic) : List Diagnostic := Diagnostic.sort (Diagnostic.dedup ds)

/-- Validates a bare template. -/
def checkSource (v : Validator) (source : Text) : Except Crash ComponentReport := do
  let report ← v.checkTemplate [] source []
  return ⟨arranged report.diagnostics, some report⟩

/-- Validates a component under an identifier, its own one when that is empty: its definition, then
its template. -/
def checkComponent (v : Validator) (id : Text) (d : Definition) : Except Crash ComponentReport := do
  let id := if id.isEmpty then d.id else id
  let schema := if v.checksSchema then (Schema.check d).map (·.withId id) else []
  match d.template with
  | none => return ⟨arranged schema, none⟩
  | some (_, source) =>
    let report ← v.checkTemplate id source d.inputs
    return ⟨arranged (schema ++ report.diagnostics), some report⟩

end Validator

end TwigLint
