import TwigLint.Proofs.Grammar.BuiltParser
import TwigLint.Proofs.Scope.Containment

/-! # Tidy trees

A tree is tidy when all its expressions, `with` and `embed` tags, macros, and loops without an
alternative keep the names that they bind to themselves.  Every tree of the parser is tidy: what
binds names stands at a slot at which a scope is open, or in a node that need not keep names to
itself.
-/

namespace TwigLint

open Tracker

/-- Nodes of this kind keep their names to themselves; a loop does only without an alternative. -/
def Kind.isConfining : Kind → Bool
  | .withTag | .embedTag | .macroTag | .forTag => true
  | kind => kind.isExpression

namespace Node

/-- The constructs that keep their names to themselves: expressions, `with`, `embed` and macros, and
loops without an alternative. -/
def isConfining (n : Node) : Bool :=
  n.kind.isConfining && (n.kind != .forTag || !n.hasChild .elseBody)

/-- All constructs of the tree that should keep their names to themselves do so. -/
def Tidy (n : Node) : Prop := ∀ m ∈ n.nodes, m.isConfining = true → Confined m

end Node

namespace Parser

variable {Q : Token → Prop} {n : Node}

/-- Expressions bind names only in the scopes of arrow functions. -/
theorem Built.confined (h : Built Q .expression n) : Confined n := by
  induction n using Node.induction with
  | node n ih =>
    refine .node ?_ fun entry hentry hopens => ?_
    · intro hkind
      have hadmits := h.kind
      rw [hkind] at hadmits
      cases hadmits
    · rcases h.below_expression hentry with hchild | ⟨hkind, -⟩
      · exact ih entry hentry hchild
      · rw [hkind] at hopens
        cases hopens

/-- Outside of their scopes, such tags have expressions only. -/
theorem below_statement {kind : Kind} {slot : Slot} (hkind : kind.isConfining = true)
    (hadmits : Category.admits .statement kind = true) (hopens : opensAt kind slot = false)
    (hslot : kind = .forTag → slot ≠ .elseBody) :
    Category.below .statement kind slot = .expression := by
  cases kind with
  | forTag => cases slot <;> first | rfl | exact absurd rfl (hslot rfl) | cases hopens
  | embedTag | withTag => cases slot <;> first | rfl | cases hopens
  | macroTag => cases hopens
  | _ => first | exact absurd hkind Bool.false_ne_true | exact absurd hadmits Bool.false_ne_true

theorem Built.confined_of_isConfining {c : Category} (h : Built Q c n)
    (hn : n.isConfining = true) : Confined n := by
  have hkind : n.kind.isConfining = true := (Bool.and_eq_true_iff.mp hn).1
  cases c with
  | expression => exact h.confined
  | parameter | parameters | target | targets =>
    have hadmits := eq_of_beq h.kind
    rw [hadmits] at hkind
    cases hkind
  | statement =>
    refine .node (fun hname => ?_) fun entry hentry hopens => ?_
    · rw [hname] at hkind
      cases hkind
    · have hchild := h.child hentry
      rw [below_statement hkind h.kind hopens] at hchild
      · exact hchild.confined
      · intro hloop helse
        have hpresent := Node.hasChild_of_mem hentry
        simp [Node.isConfining, hloop, ← helse, hpresent] at hn

end Parser

/-- Every tree that the parser builds is tidy. -/
theorem tidy_of_parseTemplate {limit : Nat} {source : Text} {root : Node}
    (h : parseTemplate limit source = .ok root) : root.Tidy := by
  intro m hm hconfining
  have hroot := built_of_parseTemplate h (Q := fun _ => True) fun _ _ _ _ => trivial
  obtain ⟨c, hbuilt⟩ := hroot.of_mem_nodes hm
  exact hbuilt.confined_of_isConfining hconfining

end TwigLint
