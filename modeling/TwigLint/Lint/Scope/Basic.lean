import TwigLint.Template.Node.Basic

/-! # Scopes

A tracker records which names a template declares and uses.  Bindings live in a store and are never
removed from it, so that they can be reported after their scope is closed; a scope maps names to
positions in the store.  An isolated scope hides everything outside it except the names that every
template receives.
-/

namespace TwigLint

/-- How a name came into scope. -/
inductive BindingKind where
  /-- Declared by the template: targets of assignments and loops. -/
  | target
  /-- A prop or slot of the component. -/
  | input
  /-- Provided at run time. -/
  | injected
  /-- A parameter of an arrow function or a key of a `with` hash. -/
  | param
  /-- An imported macro. -/
  | imported
  deriving DecidableEq, Repr

def BindingKind.label : BindingKind → Text
  | .target => "local"
  | .input => "input"
  | .injected => "injected"
  | .param => "param"
  | .imported => "macro"

/-- A name with the line of its declaration and its number among the declarations, which is zero
when the template does not declare it. -/
structure Binding where
  name : Text
  line : Int
  seq : Nat
  used : Bool
  kind : BindingKind
  deriving DecidableEq, Repr

/-- A binding that the runtime provides; it counts as used. -/
def Binding.provided (name : Text) : Binding := ⟨name, 0, 0, true, .injected⟩

/-- One lexical level.  The first entry of a name counts.  A scope that a construct of the template
opens is owned by the node of that construct. -/
structure Scope where
  names : List (Text × Nat)
  isolated : Bool
  owner : Option Node

/-- The state of a walk: all bindings, the open scopes, innermost first, and the names that are
visible everywhere.  There is always a root scope. -/
structure Tracker where
  store : Array Binding
  current : Scope
  outer : List Scope
  injected : List (Text × Nat)
  /-- Number of declarations so far. -/
  seq : Nat
  reportUnusedInputs : Bool

namespace Tracker

/-- The names every template receives. -/
def defaultInjected : List Text :=
  ["_self", "_key", "_context", "_charset", "attributes", "variant", "componentMetadata"]

/-! ## Scopes and look-up -/

/-- The open scopes, innermost first. -/
def scopes (t : Tracker) : List Scope := t.current :: t.outer

/-- The position bound to a name in the nearest of the given scopes, up to an isolated one. -/
def findIn (name : Text) : List Scope → Option Nat
  | [] => none
  | s :: rest =>
    match s.names.lookup name with
    | some i => some i
    | none => if s.isolated then none else findIn name rest

/-- The position in the store that a name refers to. -/
def resolve? (t : Tracker) (name : Text) : Option Nat :=
  match findIn name t.scopes with
  | some i => some i
  | none => t.injected.lookup name

/-- The binding that a name refers to. -/
def lookup? (t : Tracker) (name : Text) : Option Binding := (t.resolve? name).bind (t.store[·]?)

/-- The name is visible. -/
def knows (t : Tracker) (name : Text) : Bool := (t.lookup? name).isSome

/-- The name refers to an imported macro. -/
def isImported (t : Tracker) (name : Text) : Bool :=
  (t.lookup? name).any (·.kind == .imported)

/-- Opens a scope. -/
def push (t : Tracker) (isolated : Bool) (owner : Option Node := none) : Tracker :=
  { t with current := ⟨[], isolated, owner⟩, outer := t.current :: t.outer }

/-- Closes the innermost scope; the root scope stays open. -/
def pop (t : Tracker) : Tracker :=
  match t.outer with
  | [] => t
  | s :: rest => { t with current := s, outer := rest }

/-- Number of open scopes above the root. -/
def depth (t : Tracker) : Nat := t.outer.length

/-! ## Declarations and uses -/

/-- Binds a name in the innermost scope. -/
def bindName (t : Tracker) (b : Binding) : Tracker :=
  { t with
    store := t.store.push b
    current := { t.current with names := (b.name, t.store.size) :: t.current.names } }

/-- Binds a name that the runtime provides. -/
def inject (t : Tracker) (name : Text) : Tracker := t.bindName (.provided name)

/-- Declares a name in the innermost scope. -/
def declare (t : Tracker) (name : Text) (line : Int) (kind : BindingKind) : Tracker :=
  { t.bindName ⟨name, line, t.seq + 1, false, kind⟩ with seq := t.seq + 1 }

/-- Assigns to a name: a visible name is reused unless the runtime provides it, else it is
declared. -/
def assign (t : Tracker) (name : Text) (line : Int) : Tracker :=
  match t.lookup? name with
  | some b => if b.kind = .injected then t.declare name line .target else t
  | none => t.declare name line .target

/-- Marks the binding that a name refers to as used. -/
def use (t : Tracker) (name : Text) : Tracker :=
  match t.resolve? name with
  | some i => { t with store := t.store.modify i fun b => { b with used := true } }
  | none => t

/-- Seeds the names that are visible everywhere. -/
def provide (t : Tracker) (name : Text) : Tracker :=
  { t with store := t.store.push (.provided name), injected := (name, t.store.size) :: t.injected }

/-- Seeds an input of the component, once. -/
def addInput (t : Tracker) (name : Text) : Tracker :=
  if (t.current.names.lookup name).isSome then t
  else t.bindName ⟨name, 0, 0, !t.reportUnusedInputs, .input⟩

/-- A tracker for a component with the given inputs and the names that are visible everywhere. -/
def new (inputs injected : List Text) (reportUnusedInputs : Bool) : Tracker :=
  let empty : Tracker := ⟨#[], ⟨[], false, none⟩, [], [], 0, reportUnusedInputs⟩
  inputs.foldl addInput (injected.foldl provide empty)

/-! ## Reports -/

/-- All declarations of the template, in order. -/
def declarations (t : Tracker) : List Binding := t.store.toList.filter (0 < ·.seq)

/-- The inputs of the component, in order. -/
def inputs (t : Tracker) : List Binding := t.store.toList.filter (·.kind == .input)

/-- The names visible in the given scopes, up to an isolated one. -/
def namesIn : List Scope → List Text
  | [] => []
  | s :: rest => s.names.map Prod.fst ++ if s.isolated then [] else namesIn rest

/-- The visible names, sorted. -/
def visible (t : Tracker) : List Text :=
  Text.sort (namesIn t.scopes ++ t.injected.map Prod.fst).eraseDups

/-- The names that the template declares and never uses, in the order of their first declaration.
Bindings of one name in several scopes count together. -/
def unusedLocals (t : Tracker) : List Text :=
  let locals := t.declarations.filter (·.kind == .target)
  let used := (locals.filter (·.used)).map (·.name)
  ((locals.map (·.name)).filter fun n => !used.contains n).eraseDups

/-- The unused names, followed by the unused inputs where these are reported. -/
def unused (t : Tracker) : List Text :=
  let locals := t.unusedLocals
  if t.reportUnusedInputs then
    let names := (t.inputs.filter fun b => !b.used).map (·.name)
    locals ++ names.filter fun n => !locals.contains n
  else locals

end Tracker

end TwigLint
