import TwigLint.Lint.Rules.Structure
import TwigLint.Lint.Engine

/-! # The built-in rule set

The registry of all built-in rules, with name tables changed by overlays and without the rules that
are left out, and the check for unused variables at the end of a walk.
-/

namespace TwigLint.Rules

/-- The name of the check for unused variables, which is not a rule on nodes. -/
def unusedName : Text := "unused"

/-- The names of all rules. -/
def allNames : List Text :=
  ["filter", "function", "conditional", "test", "statement", "get_attr", "name", unusedName]

/-- The names of the rules that have a name table. -/
def tableNames : List Text := ["filter", "function", "name"]

/-- Why a rule set cannot be built. -/
inductive SetupError where
  | noTable (rule : Text)
  | unknownRule (rule : Text)
  | conflict (rule complaint : Text)
  | registry (e : RegistryError)

def SetupError.message : SetupError → Text
  | .noTable rule => "policy for " ++ rule.quoted ++ ": rule has no name table"
  | .unknownRule rule => "disabled rule " ++ rule.quoted ++ ": unknown rule"
  | .conflict rule complaint => "policy for " ++ rule.quoted ++ ": " ++ complaint
  | .registry e => e.message

/-- The changes to name tables, by the name of their rule. -/
abbrev Overlays := List (Text × Policy.Overlay)

/-- The table of a rule with its overlay. -/
def tableFor (overlays : Overlays) (name : Text) (base : Policy.Table) :
    Except SetupError Policy.Table :=
  let table :=
    match overlays.lookup name with
    | some o => if o.isEmpty then base else base.merge o
    | none => base
  match table.complaint? with
  | some complaint => .error (.conflict name complaint)
  | none => .ok table

/-- The built-in rules with the kinds that they look at. -/
def builtIn (filters functions names : Policy.Table) : List (List Kind × Rule) :=
  [([.filter], filterRule filters), ([.function], functionRule functions),
    ([.conditional], conditionalRule), ([.test], testRule), (statementKinds, statementRule),
    ([.getAttr], accessRule), ([.name], nameRule names)]

/-- The sealed registry of the built-in rules. -/
def registry (overlays : Overlays) (disabled : List Text) : Except SetupError Registry := do
  if let some (name, _) := overlays.find? fun o => !tableNames.contains o.1 then
    throw (.noTable name)
  if let some name := disabled.find? fun n => !allNames.contains n then
    throw (.unknownRule name)
  let filters ← tableFor overlays "filter" filterTable
  let functions ← tableFor overlays "function" functionTable
  let names ← tableFor overlays "name" variableTable
  let kept := (builtIn filters functions names).filter fun (_, r) => !disabled.contains r.name
  let register (r : Registry) (entry : List Kind × Rule) : Except SetupError Registry :=
    (r.registerAll entry.1 entry.2).mapError .registry
  return (← kept.foldlM register .empty).freeze

/-- One finding about all unused variables, when there are any. -/
def unusedVariables (id : Text) (scope : Option Tracker) : List Diagnostic :=
  match scope.map (·.unused) with
  | none | some [] => []
  | some names =>
    [{ Diagnostic.inTemplate id .unknown .error ("Unused variables: " ++ Text.join ", " names) with
      rule := unusedName }]

end TwigLint.Rules
