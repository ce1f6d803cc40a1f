import TwigLint.Command.Session
import TwigLint.Lint.Validator
import TwigLint.Output.Format

/-! # The rules command

Lists the rules with the node kinds that they inspect, or the names in the table of one rule.
-/

namespace TwigLint

namespace RulesCommand

/-- The name of the command in messages. -/
def name : Text := "rules"

/-! ## Lists of rules -/

/-- The number of names per verdict, in the order of the verdicts' names. -/
def counts (t : Policy.Table) : List (Text × Nat) :=
  let labels := t.entries.map fun e => e.2.label
  (Text.sort labels.eraseDups).map fun l => (l, labels.count l)

/-- The table of a rule in short. -/
def tableSummary : Option Policy.Table → Text
  | none => "-"
  | some t =>
    let parts : List Text := (counts t).map fun (l, n) => l ++ " " ++ Text.ofNat n
    let parts := if t.graylist then parts ++ [Text.ofString "graylist"] else parts
    if parts.isEmpty then "-" else Text.join ", " parts

def ruleRow (r : RuleInfo) : List Text :=
  [r.name, Text.join "," (r.kinds.map fun k => Text.ofString k.label), tableSummary r.table,
    r.description]

def ruleJson (r : RuleInfo) : Json :=
  let fields : List (Text × Json) := [("name", .text r.name), ("description", .text r.description),
    ("kinds", .list (r.kinds.map fun k => .text k.label))]
  let named := (r.table.map counts).getD []
  let policy : List (Text × Json) :=
    if named.isEmpty then [] else [("policy", .object (named.map fun (l, n) => (l, .ofNat n)))]
  .object (fields ++ policy)

/-- A list of rules as something to print. -/
def ruleList (rs : List RuleInfo) : Content :=
  let line (r : RuleInfo) : Text := r.name ++ ": " ++ r.description ++ "\n"
  .tabular ["rule", "kinds", "policy", "description"] (rs.map ruleRow) (rs.flatMap line)
    (.list (rs.map ruleJson))

/-! ## Lists of names -/

/-- A name in a table with one of its verdicts. -/
structure Entry where
  name : Text
  verdict : Policy.Verdict
  hint : Text

/-- The hint of a name under a verdict. -/
def hintOf (t : Policy.Table) (name : Text) (v : Policy.Verdict) : Text :=
  let hints : Policy.Hints := match v with
    | .retire => t.retire
    | .warn => t.warn
    | .forbid => t.forbid
    | _ => []
  (hints.lookup name).getD []

/-- The entries of a table in the order of their names. -/
def entries (t : Policy.Table) : List Entry :=
  (t.buckets.mergeSort fun a b => a.1.le b.1).flatMap fun (name, verdicts) =>
    verdicts.map fun v => ⟨name, v, hintOf t name v⟩

def entryJson (e : Entry) : Json :=
  let fields : List (Text × Json) := [("name", .text e.name), ("verdict", .text e.verdict.label)]
  let hint : List (Text × Json) := if e.hint.isEmpty then [] else [("hint", .text e.hint)]
  .object (fields ++ hint)

/-- The line of an entry. -/
def entryLine (e : Entry) : Text :=
  let hint : Text := if e.hint.isEmpty then "" else " (" ++ e.hint ++ ")"
  "  " ++ e.name ++ ": " ++ e.verdict.label ++ hint ++ "\n"

/-- A table as something to print. -/
def tableList (t : Policy.Table) : Content :=
  let es := entries t
  let title : Text :=
    t.family ++ " names (graylist: " ++ Text.ofBool t.graylist ++ ")\n"
  let value : Json := .object [("family", .text t.family), ("graylist", .bool t.graylist),
    ("names", .list (es.map entryJson))]
  .tabular ["name", "verdict", "hint"] (es.map fun e => [e.name, e.verdict.label, e.hint])
    (title ++ es.flatMap entryLine) value

/-! ## The command -/

/-- What is printed for the other arguments. -/
def content (rs : List RuleInfo) : List Text → Except CommandError Content
  | [] => .ok (ruleList rs)
  | rule :: _ =>
    match rs.find? (·.name == rule) with
    | none => .error (.usage name (some (.other ("unknown rule " ++ rule.quoted)))
        "run 'sdclint rules' to list the rules")
    | some info =>
      match info.table with
      | none => .error (.usage name (some (.other ("rule " ++ rule.quoted ++ " has no name table")))
          [])
      | some t => .ok (tableList t)

/-- Runs the command. -/
def execute (s : Session) (a : Arguments) : Except CommandError Outcome := do
  let wanted := ((a.values "format").getLast?).getD "table"
  let some format := OutputFormat.read? wanted
    | throw (.usage name (some (.setting "format" (OutputFormat.unknownMessage wanted))) [])
  let c ← (s.config a).mapError (Session.configFailure name)
  Session.accept name [] c
  let v ← (Validator.ofOptions c.lint.options).mapError fun e =>
    .usage name (some (.other ("build rules: " ++ e.message)))
      "check the lint.policies and lint.disabled_rules settings"
  let shown ← content v.registry.definitions a.others
  match format.render? shown with
  | some output => return .printing output
  | none => throw (.ofCause name (some (.other OutputFormat.notTabularMessage)))

end RulesCommand

end TwigLint
