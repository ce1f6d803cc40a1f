import TwigLint.Template.Node.Basic

/-! # Traversal

Depth-first traversal of a syntax tree, children in slot order.  `Node.walk` calls a visitor on
entering and leaving every node; `Node.inspect` lists the nodes in the order in which they are
entered.
-/

namespace TwigLint

/-- What a visitor answers on entering a node. -/
inductive Visit (ε : Type) where
  /-- Continue with the children. -/
  | descend
  /-- Leave the node without visiting its children. -/
  | skip
  /-- Stop the traversal. -/
  | fail (e : ε)

/-- A visitor with a state of its own. -/
structure Visitor (σ ε : Type) where
  enter : σ → Node → σ × Visit ε
  leave : σ → Node → σ × Option ε

namespace Node

mutual
/-- Traverses a tree; the answer is the visitor's last state and the failure that stopped it. -/
def walk {σ ε : Type} (v : Visitor σ ε) (s : σ) : Node → σ × Option ε
  | ⟨kind, location, attrs, children⟩ =>
    let node : Node := ⟨kind, location, attrs, children⟩
    match v.enter s node with
    | (s, .fail e) => (s, some e)
    | (s, .skip) => v.leave s node
    | (s, .descend) =>
      match walkAll v s children with
      | (s, some e) => (s, some e)
      | (s, none) => v.leave s node

/-- Traverses the children of a node up to the first failure. -/
def walkAll {σ ε : Type} (v : Visitor σ ε) (s : σ) : List (Slot × Node) → σ × Option ε
  | [] => (s, none)
  | (_, child) :: rest =>
    match walk v s child with
    | (s, some e) => (s, some e)
    | (s, none) => walkAll v s rest
end

mutual
/-- The nodes of a tree in pre-order; `descend` tells whether the children of a node are visited. -/
def inspect (descend : Node → Bool) : Node → List Node
  | ⟨kind, location, attrs, children⟩ =>
    let node : Node := ⟨kind, location, attrs, children⟩
    node :: if descend node then inspectAll descend children else []

def inspectAll (descend : Node → Bool) : List (Slot × Node) → List Node
  | [] => []
  | (_, child) :: rest => inspect descend child ++ inspectAll descend rest
end

/-- All nodes of a kind, in pre-order. -/
def find (n : Node) (kind : Kind) : List Node :=
  (n.inspect fun _ => true).filter (·.kind == kind)

mutual
/-- The nodes of a tree in pre-order, each with its depth and its slot. -/
def outline (depth : Nat) (slot : Option Slot) : Node → List (Nat × Option Slot × Node)
  | ⟨kind, location, attrs, children⟩ =>
    (depth, slot, ⟨kind, location, attrs, children⟩) :: outlineAll (depth + 1) children

def outlineAll (depth : Nat) : List (Slot × Node) → List (Nat × Option Slot × Node)
  | [] => []
  | (slot, child) :: rest => outline depth (some slot) child ++ outlineAll depth rest
end

/-- The attributes in the order of their names. -/
def attrText (attrs : List (Attr × Value)) : Text :=
  let entries := attrs.map fun (a, v) => ((a.label : Text), v)
  let sorted := entries.mergeSort fun x y => x.1.le y.1
  if sorted.isEmpty then []
  else " [" ++ Text.join " " (sorted.map fun (a, v) => a ++ "=" ++ v.render) ++ "]"

/-- One line of the printed tree. -/
def dumpLine (depth : Nat) (slot : Option Slot) (n : Node) : Text :=
  Text.repeated "  " depth ++
    (match slot with
      | some s => if s.label.isEmpty then [] else s.label ++ ": "
      | none => []) ++
    n.kind.label ++ attrText n.attrs ++ " @" ++ Text.ofInt n.line ++ "\n"

/-- The tree as indented lines, one per node. -/
def dump (n : Node) : Text :=
  (n.outline 0 none).flatMap fun (depth, slot, node) => dumpLine depth slot node

end Node

end TwigLint
