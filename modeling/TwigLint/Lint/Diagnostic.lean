import TwigLint.Lint.Severity
import TwigLint.Lint.Excerpt
import TwigLint.Template.Node.Basic

/-! # Diagnostics

A diagnostic is one finding about a component.  Lists of diagnostics are sorted by component and
kind in the order of their first appearance, then by line, and exact duplicates are dropped.
-/

namespace TwigLint

/-- Where a diagnostic comes from. -/
inductive Origin where
  | template
  | schema
  | other (name : Text)
  deriving DecidableEq, Repr

namespace Origin

def name : Origin → Text
  | template => "template"
  | schema => "schema"
  | other name => name

def ofName (t : Text) : Origin :=
  if t == "template" then template else if t == "schema" then schema else other t

/-- The word for the origin in reports. -/
def label : Origin → Text
  | schema => "Schema"
  | _ => "Twig"

end Origin

/-- One finding. -/
structure Diagnostic where
  id : Text
  line : Int
  column : Int
  severity : Severity
  message : Text
  origin : Origin
  rule : Text
  excerpt : Text
  deriving DecidableEq, Repr

namespace Diagnostic

/-- A finding in a template at the given position. -/
def inTemplate (id : Text) (location : Location) (severity : Severity) (message : Text) :
    Diagnostic :=
  ⟨id, location.line, location.column, severity, message, .template, [], []⟩

/-- A finding in a definition at the given line. -/
def inSchema (id : Text) (line : Int) (severity : Severity) (message : Text) : Diagnostic :=
  ⟨id, line, 0, severity, message, .schema, [], []⟩

def withId (d : Diagnostic) (id : Text) : Diagnostic := { d with id }

/-- The findings with `length` lines of the source from their lines on. -/
def withExcerpts (source : Text) (length : Int) (ds : List Diagnostic) :
    Except Crash (List Diagnostic) :=
  let all := (Excerpt.lines source).toArray
  ds.mapM fun d => do return { d with excerpt := ← Excerpt.ofLines all d.line length }

/-- Identifier, line and column, as far as they are known. -/
def position (d : Diagnostic) : Text :=
  let id : Text := if d.id.isEmpty then [] else d.id ++ ":"
  let column : Text := if 0 < d.column then Text.ofInt d.column ++ ":" else []
  if 0 < d.line then id ++ Text.ofInt d.line ++ ":" ++ column else id

/-- The finding on one line. -/
def render (d : Diagnostic) : Text :=
  let position : Text := if d.position.isEmpty then [] else d.position ++ " "
  position ++ "[" ++ d.severity.name ++ "] " ++ d.message

/-- Component and origin, by which lists are grouped. -/
def group (d : Diagnostic) : Text := d.id ++ 0 :: d.origin.name

/-- What makes two findings duplicates. -/
def key (d : Diagnostic) : Int × Int × Severity × Text × Text × Text :=
  (d.line, d.column, d.severity, d.id, d.origin.name, d.message)

/-- The first entry of each key. -/
def dedup (ds : List Diagnostic) : List Diagnostic := go [] ds
where
  go (seen : List (Int × Int × Severity × Text × Text × Text)) : List Diagnostic → List Diagnostic
    | [] => []
    | d :: rest => if seen.contains d.key then go seen rest else d :: go (d.key :: seen) rest

/-- The groups of a list in the order of their first appearance. -/
def groups (ds : List Diagnostic) : List Text := (ds.map group).eraseDups

/-- The order within a sorted list: by group, then by line.  The difference of two lines wraps
around. -/
def before (order : List Text) (a b : Diagnostic) : Bool :=
  let i := order.idxOf a.group
  let j := order.idxOf b.group
  i < j || (i == j && wrap64 (a.line - b.line) ≤ 0)

/-- The list by group and line; findings on one line of a group keep their order. -/
def sort (ds : List Diagnostic) : List Diagnostic := ds.mergeSort (before (groups ds))

/-- The findings that are at least as severe as a threshold. -/
def atLeast (threshold : Severity) (ds : List Diagnostic) : List Diagnostic :=
  ds.filter (·.severity.atLeast threshold)

/-- Some finding is at least as severe as a threshold. -/
def anyAtLeast (threshold : Severity) (ds : List Diagnostic) : Bool :=
  ds.any (·.severity.atLeast threshold)

/-- The number of findings of each severity that occurs. -/
def countBySeverity (ds : List Diagnostic) : List (Severity × Nat) :=
  (ds.map (·.severity)).eraseDups.map fun s => (s, (ds.filter (·.severity == s)).length)

end Diagnostic

end TwigLint
