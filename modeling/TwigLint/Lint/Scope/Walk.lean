import TwigLint.Lint.Scope.Operation

/-! # Scopes along a walk

What a tracker does while a tree is walked: names are used and declared on entering their nodes, and
loops, arrow functions, macros, embeds and `with` tags open a scope at some of their slots.  Such a
scope is owned by its node, so that it is opened once and closed when the node is left.
-/

namespace TwigLint

namespace Tracker

/-- The variable that loop bodies receive. -/
def loopName : Text := "loop"

/-- The variable that macro bodies receive. -/
def varargsName : Text := "varargs"

/-- Binds the name of a target as its surroundings say: loop targets and macro parameters are
declared, parameters of arrow functions and imports likewise in their own way, and all others are
assigned to. -/
def bindTarget (node : Node) (ancestors : List Node) : ScopeOp :=
  let parent : Option Kind := ancestors.head?.map Node.kind
  let grandparent : Option Kind := (ancestors.drop 1).head?.map Node.kind
  match parent, grandparent with
  | some .forTag, _ => .declare node.name node.line
  | some .targets, some .arrow => .declareParam node.name node.line
  | some .targets, some .macroTag => .declare node.name node.line
  | some .targets, some .importTag => .declareImport node.name node.line
  | some .targets, some .fromTag => .declareImport node.name node.line
  | _, _ => .assign node.name node.line

/-- The changes on entering a node; `ancestors` are the nodes around it, nearest first. -/
def onEnter (t : Tracker) (node : Node) (ancestors : List Node) : List ScopeOp :=
  match node.kind with
  | .name => [.use node.name]
  | .function => if t.isImported node.name then [.use node.name] else []
  | .assignName => [bindTarget node ancestors]
  | _ => []

/-! Owners are compared by what they are and not by where they stand, which is the same inside one
tree.  When a node is visited, the open scopes that nodes own are its own and those of the nodes
around it, for a scope is closed when its node is left.  The nodes around it are larger than it is,
so that none of them is equal to it, and an equal node somewhere else in the tree has no scope open
now.  Only a walk that starts inside a scope which an equal node of another tree owns would take
that scope for its own; `Foreign` trackers are those of all other walks. -/

/-- Opens the scope of a node unless it is the innermost one, and then prepares it. -/
def opening (t : Tracker) (node : Node) (isolated : Bool) (prepare : List ScopeOp) : List ScopeOp :=
  if t.current.owner = some node then [] else .push isolated (some node) :: prepare

/-- Closes the scope of a node if it is the innermost one. -/
def closing (t : Tracker) (node : Node) : List ScopeOp :=
  if t.current.owner = some node then [.pop] else []

/-- The name that a literal key of a hash binds. -/
def hashKey? (pair : Node) : Option (Text × Int) := do
  let key ← pair.child? .key
  let name ← match key.literal? with
    | some (.text t) => some t
    | _ => none
  if name.isEmpty then none else some (name, key.line)

/-- Declares the literal keys of a hash. -/
def declareKeys (context : Option Node) : List ScopeOp :=
  match context with
  | some hash =>
    if hash.kind = .hash then
      (hash.children.filterMap fun (_, pair) => hashKey? pair).map fun (name, line) =>
        .declareParam name line
    else []
  | none => []

/-- The changes on going on to a slot of a node. -/
def onSlot (t : Tracker) (node : Node) (slot : Slot) : List ScopeOp :=
  match node.kind with
  | .forTag =>
    match slot with
    | .keyTarget | .valueTarget | .body => t.opening node false [.inject loopName]
    | .elseBody => t.closing node
    | _ => []
  | .arrow => t.opening node false []
  | .macroTag => t.opening node true [.inject varargsName]
  | .embedTag | .withTag =>
    if slot = .body then
      t.opening node (node.boolAttr .only) (declareKeys (node.child? .context))
    else []
  | _ => []

/-- The changes on leaving a node. -/
def onLeave (t : Tracker) (node : Node) : List ScopeOp :=
  match node.kind with
  | .forTag | .arrow | .macroTag | .embedTag | .withTag => t.closing node
  | _ => []

end Tracker

/-! ## Walking a tree

A walk carries a tracker where scopes are tracked.  At every node it first updates the scopes and
then lets an observer look at them, at the nodes around, nearest first, and at the node. -/

namespace ScopedWalk

/-- What is asked at every node. -/
abbrev Observer (α : Type) := Option Tracker → List Node → Node → List α

/-- Where a walk is: the scopes, and the nodes around, nearest first. -/
structure State where
  scope : Option Tracker
  ancestors : List Node

namespace State

/-- The scopes after some changes. -/
def update (s : State) (changes : Tracker → List ScopeOp) : State :=
  { s with scope := s.scope.map fun t => t.run (changes t) }

/-- Goes inside a node. -/
def push (s : State) (node : Node) : State := { s with ancestors := node :: s.ancestors }

/-- Goes outside again. -/
def pop (s : State) : State := { s with ancestors := s.ancestors.tail }

end State

mutual
/-- Walks a tree; the answer has the state after it and all observations in their order. -/
def visit {α : Type} (observe : Observer α) (s : State) : Node → State × List α
  | ⟨kind, location, attrs, children⟩ =>
    let node : Node := ⟨kind, location, attrs, children⟩
    let s := s.update fun t => t.onEnter node s.ancestors
    let seen := observe s.scope s.ancestors node
    let (s, inner) := visitSlots observe (s.push node) node children
    (s.pop.update fun t => t.onLeave node, seen ++ inner)

/-- Walks the children of a node from some slot on. -/
def visitSlots {α : Type} (observe : Observer α) (s : State) (node : Node) :
    List (Slot × Node) → State × List α
  | [] => (s, [])
  | (slot, child) :: rest =>
    let (s, seen) := visit observe (s.update fun t => t.onSlot node slot) child
    let (s, inner) := visitSlots observe s node rest
    (s, seen ++ inner)
end

/-- Walks a tree from the given scopes on, inside the given nodes; the answer has the scopes after
it and all observations. -/
def tree {α : Type} (observe : Observer α) (scope : Option Tracker) (ancestors : List Node)
    (root : Node) : Option Tracker × List α :=
  let (s, seen) := visit observe ⟨scope, ancestors⟩ root
  (s.scope, seen)

end ScopedWalk

end TwigLint
