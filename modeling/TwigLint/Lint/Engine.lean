import TwigLint.Lint.Rule
import TwigLint.Lint.Scope.Walk
import TwigLint.Telemetry.Log

/-! # Running rules over a tree

The engine walks a tree depth first, keeps the scopes in step, and runs the rules of every node in
their order.  A rule that breaks off contributes one critical diagnostic, and the walk goes on.
-/

namespace TwigLint

/-- The run of one rule on one node. -/
structure CheckRun where
  rule : Text
  node : Node
  outcome : Except Text (List Diagnostic)

/-- A rule that broke off. -/
structure Failure where
  rule : Text
  kind : Kind
  line : Int
  reason : Text

/-- The log record of a failure in a component. -/
def Failure.record (id : Text) (f : Failure) : LogRecord :=
  ⟨.warn, "rule failed", [("rule", .text f.rule), ("kind", .text f.kind.label),
    ("line", .int f.line), ("component", .text id), ("panic", .text f.reason)]⟩

namespace CheckRun

/-- The diagnostics of a run, attributed to its rule; a broken-off run has one that says so. -/
def diagnostics (id : Text) (r : CheckRun) : List Diagnostic :=
  match r.outcome with
  | .ok ds => ds.map fun d => if d.rule.isEmpty then { d with rule := r.rule } else d
  | .error reason =>
    [{ Diagnostic.inTemplate id r.node.location .critical
        ("Rule '" ++ r.rule ++ "' failed: " ++ reason) with rule := r.rule }]

def failure? (r : CheckRun) : Option Failure :=
  match r.outcome with
  | .ok _ => none
  | .error reason => some ⟨r.rule, r.node.kind, r.node.line, reason⟩

end CheckRun

/-- Rules, and the names of those that are left out. -/
structure Engine where
  registry : Registry
  disabled : List Text

namespace Engine

/-- Runs the rules of a node. -/
def checkNode (e : Engine) (ctx : Context) (node : Node) : List CheckRun :=
  ((e.registry.rulesFor node.kind).filter fun r => !e.disabled.contains r.name).map fun r =>
    ⟨r.name, node, r.check { ctx with rule := r.name } node⟩

/-- Walks a tree in a context: the context after the walk, and all runs of rules in their order. -/
def visit (e : Engine) (ctx : Context) (root : Node) : Context × List CheckRun :=
  let observe scope ancestors node := e.checkNode { ctx with scope, ancestors } node
  let (s, runs) := ScopedWalk.visit observe ⟨ctx.scope, ctx.ancestors⟩ root
  ({ ctx with scope := s.scope, ancestors := s.ancestors }, runs)

/-- The scopes after walking a tree in a context, and all runs of rules. -/
def walk (e : Engine) (ctx : Context) (root : Node) : Option Tracker × List CheckRun :=
  let (after, runs) := e.visit ctx root
  (after.scope, runs)

end Engine

end TwigLint
