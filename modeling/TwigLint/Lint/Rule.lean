import TwigLint.Lint.Diagnostic
import TwigLint.Lint.Policy
import TwigLint.Lint.Scope.Suggest

/-! # Rules and their registry

A rule looks at one node and the context of a walk and answers with diagnostics, or breaks off.  The
registry keeps the rules of every node kind in the order of their registration, until it is sealed.
-/

namespace TwigLint

/-- An input of a component with the word for its type. -/
structure Input where
  name : Text
  type : Text
  deriving DecidableEq, Repr

/-- What a rule sees besides the node: the component, its inputs, the scopes if they are tracked,
the nodes around, nearest first, and its own name. -/
structure Context where
  id : Text
  inputs : List Input
  scope : Option Tracker
  ancestors : List Node
  rule : Text

namespace Context

/-- The type of an input; empty for a name that is none. -/
def inputType (ctx : Context) (name : Text) : Text :=
  ((ctx.inputs.find? (·.name == name)).map (·.type)).getD []

/-- The node around. -/
def parent? (ctx : Context) : Option Node := ctx.ancestors.head?

/-- The nearest node around that satisfies a condition. -/
def nearest? (ctx : Context) (p : Node → Bool) : Option Node := ctx.ancestors.find? p

/-- A finding at a node, attributed to the running rule. -/
def report (ctx : Context) (node : Node) (severity : Severity) (message : Text) : Diagnostic :=
  { Diagnostic.inTemplate ctx.id node.location severity message with rule := ctx.rule }

/-- The name is visible; every name is where scopes are not tracked. -/
def knows (ctx : Context) (name : Text) : Bool :=
  match ctx.scope with
  | some t => t.knows name
  | none => true

/-- The name refers to an imported macro. -/
def isImported (ctx : Context) (name : Text) : Bool := ctx.scope.any (·.isImported name)

end Context

/-- A rule.  `check` fails with a reason where the rule breaks off. -/
structure Rule where
  name : Text
  description : Text
  table : Option Policy.Table
  check : Context → Node → Except Text (List Diagnostic)

/-- What is known of a registered rule. -/
structure RuleInfo where
  name : Text
  description : Text
  kinds : List Kind
  table : Option Policy.Table

/-- Why a rule cannot be registered. -/
inductive RegistryError where
  | frozen
  | noRule (kind : Kind)
  | duplicate (name : Text) (kind : Kind)

def RegistryError.message : RegistryError → Text
  | .frozen => "rule registry is sealed"
  | .noRule kind => "register " ++ kind.label ++ ": nil rule"
  | .duplicate name kind =>
    "register " ++ name.quoted ++ " on " ++ kind.label ++ ": duplicate rule"

/-- The registrations in their order.  What a registry tells is read off them; `Registry.Stored` is
the registry that keeps tables of it, and gives the same answers. -/
structure Registry where
  entries : List (Kind × Rule)
  frozen : Bool

namespace Registry

def empty : Registry := ⟨[], false⟩

/-- The rules registered for exactly this kind. -/
def registered (r : Registry) (kind : Kind) : List Rule :=
  (r.entries.filter (·.1 == kind)).map Prod.snd

/-- The rules of a kind: those registered for it, then those of every node. -/
def resolve (r : Registry) (kind : Kind) : List Rule :=
  if kind = .any then r.registered .any else r.registered kind ++ r.registered .any

/-- The rules of all kinds that rules are registered for, as a sealed registry keeps them ready. -/
def resolved (r : Registry) : List (Kind × List Rule) :=
  ((r.entries.map Prod.fst).filter fun kind => kind != .any).map fun kind => (kind, r.resolve kind)

/-- The rules to run on a node.  A sealed registry looks them up; a kind that it has nothing ready
for has the rules of every node only. -/
def rulesFor (r : Registry) (kind : Kind) : List Rule :=
  if r.frozen then (r.resolved.lookup kind).getD (r.registered .any) else r.resolve kind

/-- Registers a rule for a kind. -/
def register (r : Registry) (kind : Kind) (rule : Option Rule) : Except RegistryError Registry :=
  if r.frozen then .error .frozen
  else
    match rule with
    | none => .error (.noRule kind)
    | some rule =>
      if (r.registered kind).any (·.name == rule.name) then .error (.duplicate rule.name kind)
      else .ok { r with entries := r.entries ++ [(kind, rule)] }

/-- Registers a rule for several kinds. -/
def registerAll (r : Registry) (kinds : List Kind) (rule : Rule) : Except RegistryError Registry :=
  kinds.foldlM (fun r kind => r.register kind rule) r

/-- Forbids further registrations. -/
def freeze (r : Registry) : Registry := { r with frozen := true }

/-- What is known of rules after one more registration: a rule whose name is known has one more
kind, any other is new. -/
def note (kind : Kind) (rule : Rule) : List RuleInfo → List RuleInfo
  | [] => [⟨rule.name, rule.description, [kind], rule.table⟩]
  | info :: rest =>
    if info.name == rule.name then { info with kinds := info.kinds ++ [kind] } :: rest
    else info :: note kind rule rest

/-- The rules in the order of their first registration. -/
def definitions (r : Registry) : List RuleInfo :=
  r.entries.foldl (fun infos entry => note entry.1 entry.2 infos) []

/-- Number of rules. -/
def size (r : Registry) : Nat := r.definitions.length

end Registry

end TwigLint
