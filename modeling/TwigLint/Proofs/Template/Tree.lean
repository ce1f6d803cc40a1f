import TwigLint.Template.Node.Walk

/-! # Trees

The nodes of a tree, induction over a tree, and the children of nodes that are put together from
parts.
-/

namespace TwigLint

namespace Node

/-! ## Nodes of a tree -/

/-- All nodes of a tree, the root first. -/
def nodes (n : Node) : List Node := n.inspect fun _ => true

theorem sizeOf_child_lt {n : Node} {entry : Slot × Node} (h : entry ∈ n.children) :
    sizeOf entry.2 < sizeOf n := by
  obtain ⟨kind, location, attrs, children⟩ := n
  obtain ⟨slot, child⟩ := entry
  have := List.sizeOf_lt_of_mem h
  simp only [Prod.mk.sizeOf_spec, Node.mk.sizeOf_spec] at *
  omega

/-- What holds of a node when it holds of its children holds of every node. -/
@[elab_as_elim]
theorem induction {motive : Node → Prop}
    (node : ∀ n : Node, (∀ entry ∈ n.children, motive entry.2) → motive n) (n : Node) : motive n :=
  node n fun entry _h => induction node entry.2
termination_by sizeOf n
decreasing_by exact sizeOf_child_lt _h

theorem mem_inspectAll {n : Node} {children : List (Slot × Node)} :
    n ∈ inspectAll (fun _ => true) children ↔ ∃ entry ∈ children, n ∈ entry.2.nodes := by
  induction children with
  | nil => simp [inspectAll]
  | cons entry rest ih => simp [inspectAll, ih, nodes]

theorem mem_nodes {m n : Node} :
    m ∈ n.nodes ↔ m = n ∨ ∃ entry ∈ n.children, m ∈ entry.2.nodes := by
  obtain ⟨kind, location, attrs, children⟩ := n
  rw [nodes, inspect, if_pos rfl, List.mem_cons, mem_inspectAll]

theorem self_mem_nodes (n : Node) : n ∈ n.nodes := mem_nodes.mpr (.inl rfl)

theorem mem_nodes_of_child {m n : Node} {entry : Slot × Node} (he : entry ∈ n.children)
    (h : m ∈ entry.2.nodes) : m ∈ n.nodes := mem_nodes.mpr (.inr ⟨entry, he, h⟩)

theorem sizeOf_le_of_mem_nodes {m n : Node} (h : m ∈ n.nodes) : sizeOf m ≤ sizeOf n := by
  induction n using Node.induction with
  | node n ih =>
    rcases mem_nodes.mp h with rfl | ⟨entry, he, hm⟩
    · exact Nat.le_refl _
    · have hlt := sizeOf_child_lt he
      have hle := ih entry he hm
      omega

/-- A node is not part of a tree below it. -/
theorem not_mem_nodes_child {n : Node} {entry : Slot × Node} (h : entry ∈ n.children) :
    n ∉ entry.2.nodes := by
  intro hmem
  have hle := sizeOf_le_of_mem_nodes hmem
  have hlt := sizeOf_child_lt h
  omega

/-! ## Construction of nodes -/

@[simp] theorem kind_leaf (kind : Kind) (location : Location) :
    (leaf kind location).kind = kind := rfl

@[simp] theorem kind_withAttr (n : Node) (a : Attr) (v : Value) :
    (n.withAttr a v).kind = n.kind := rfl

@[simp] theorem kind_withChild (n : Node) (slot : Slot) (child : Option Node) :
    (n.withChild slot child).kind = n.kind := by
  cases child <;> rfl

@[simp] theorem location_withChild (n : Node) (slot : Slot) (child : Option Node) :
    (n.withChild slot child).location = n.location := by
  cases child <;> rfl

theorem mem_setEntry {α β : Type} [DecidableEq α] {a : α} {b : β} {entries : List (α × β)}
    {entry : α × β} (h : entry ∈ setEntry a b entries) : entry = (a, b) ∨ entry ∈ entries := by
  fun_induction setEntry a b entries <;> grind

theorem mem_children_withChild {n : Node} {slot : Slot} {child : Option Node} {entry : Slot × Node}
    (h : entry ∈ (n.withChild slot child).children) :
    entry.1 = slot ∧ entry.2 ∈ child ∨ entry ∈ n.children := by
  cases child with
  | none => exact .inr h
  | some c =>
    rcases mem_setEntry h with rfl | h
    · exact .inl ⟨rfl, rfl⟩
    · exact .inr h

theorem mem_items {index : Nat} {children : List (Option Node)} {entry : Slot × Node}
    (h : entry ∈ items index children) : some entry.2 ∈ children := by
  fun_induction items index children <;> grind

theorem mem_children_listOf {kind : Kind} {location : Location} {children : List Node}
    {entry : Slot × Node} (h : entry ∈ (listOf kind location children).children) :
    entry.2 ∈ children := by
  simpa using mem_items h

/-- The children of a list are its items. -/
theorem slot_of_mem_listOf {kind : Kind} {location : Location} {children : List Node}
    {entry : Slot × Node} (h : entry ∈ (listOf kind location children).children) :
    ∃ i, entry.1 = .item i := by
  have hitems (index : Nat) (children : List (Option Node)) :
      ∀ entry ∈ items index children, ∃ i, entry.1 = .item i := by
    fun_induction items index children with
    | case1 => simp
    | case2 index rest ih => exact ih
    | case3 index child rest ih => exact List.forall_mem_cons.mpr ⟨⟨index, rfl⟩, ih⟩
  exact hitems 0 _ entry h

theorem mem_children_of_child? {n child : Node} {slot : Slot} (h : n.child? slot = some child) :
    (slot, child) ∈ n.children := by
  obtain ⟨before, behind, hchildren, -⟩ := List.lookup_eq_some_iff.mp h
  simp [hchildren]

theorem hasChild_of_mem {n : Node} {entry : Slot × Node} (h : entry ∈ n.children) :
    n.hasChild entry.1 = true := by
  rw [hasChild, child?, List.lookup_isSome_iff]
  exact ⟨entry, h, beq_self_eq_true _⟩

end Node

end TwigLint
