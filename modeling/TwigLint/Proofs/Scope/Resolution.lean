import TwigLint.Proofs.Grammar.Tidy

/-! # Names along a walk

A walk comes to every node of a tree in some state.  When the tree comes from the parser, walking an
expression, a `with` or `embed` tag, a macro or a loop without an alternative from the state in
which the walk comes to it leaves all names as they were.
-/

namespace TwigLint

open Tracker

/-! ## Moments of a walk -/

namespace ScopedWalk

mutual
/-- The nodes of a tree in the order of a walk, each with the state in which the walk comes to
it. -/
def moments (s : State) : Node → List (State × Node)
  | ⟨kind, location, attrs, children⟩ =>
    let node : Node := ⟨kind, location, attrs, children⟩
    (s, node) ::
      slotMoments ((s.update fun t => t.onEnter node s.ancestors).push node) node children

/-- The moments of walking the children of a node from some slot on. -/
def slotMoments (s : State) (node : Node) : List (Slot × Node) → List (State × Node)
  | [] => []
  | (slot, child) :: rest =>
    let turned := s.update fun t => t.onSlot node slot
    let after := (visit (fun _ _ _ => ([] : List Unit)) turned child).1
    moments turned child ++ slotMoments after node rest
end

theorem moments_eq (s : State) (node : Node) :
    moments s node = (s, node) :: slotMoments ((s.update fun t =>
      t.onEnter node s.ancestors).push node) node node.children := by
  obtain ⟨kind, location, attrs, children⟩ := node
  rw [moments]

theorem slotMoments_nodes {node : Node} {children : List (Slot × Node)}
    (h : ∀ entry ∈ children, ∀ s, (moments s entry.2).map Prod.snd = entry.2.nodes) (s : State) :
    (slotMoments s node children).map Prod.snd = Node.inspectAll (fun _ => true) children := by
  induction children generalizing s with
  | nil => rfl
  | cons entry rest ih =>
    obtain ⟨hentry, hrest⟩ := List.forall_mem_cons.mp h
    rw [slotMoments, List.map_append, hentry, ih hrest]
    rfl

/-- A walk comes to the nodes of a tree in pre-order. -/
theorem moments_nodes (s : State) (root : Node) : (moments s root).map Prod.snd = root.nodes := by
  induction root using Node.induction generalizing s with
  | node root ih =>
    rw [moments_eq, List.map_cons, slotMoments_nodes ih]
    obtain ⟨kind, location, attrs, children⟩ := root
    simp [Node.nodes, Node.inspect]

/-- The moments are about nodes of the tree. -/
theorem mem_nodes_of_mem_moments {s : State} {root : Node} {m : State × Node}
    (h : m ∈ moments s root) : m.2 ∈ root.nodes :=
  moments_nodes s root ▸ List.mem_map_of_mem h

section

variable {α : Type} (observe : Observer α)

/-- What is observed at a moment: the scopes have been updated for the node. -/
def observed (m : State × Node) : List α :=
  observe (m.1.update fun t => t.onEnter m.2 m.1.ancestors).scope m.1.ancestors m.2

theorem visit_seen (s : State) (node : Node) :
    (visit observe s node).2 = observed observe (s, node) ++ (visitSlots observe ((s.update fun t =>
      t.onEnter node s.ancestors).push node) node node.children).2 := by
  obtain ⟨kind, location, attrs, children⟩ := node
  rw [visit]
  rfl

theorem visitSlots_seen {node : Node} {children : List (Slot × Node)}
    (h : ∀ entry ∈ children, ∀ s,
      (visit observe s entry.2).2 = (moments s entry.2).flatMap (observed observe)) (s : State) :
    (visitSlots observe s node children).2 =
      (slotMoments s node children).flatMap (observed observe) := by
  induction children generalizing s with
  | nil => simp [visitSlots, slotMoments]
  | cons entry rest ih =>
    obtain ⟨slot, child⟩ := entry
    simp only [visitSlots, slotMoments, List.flatMap_append]
    rw [h (slot, child) (List.mem_cons_self ..), ih fun e he => h e (List.mem_cons_of_mem _ he),
      visit_state, visit_state]

/-- A walk observes each of its moments, in their order, and nothing else. -/
theorem visit_observations (s : State) (node : Node) :
    (visit observe s node).2 = (moments s node).flatMap (observed observe) := by
  induction node using Node.induction generalizing s with
  | node node ih => rw [visit_seen, visitSlots_seen observe ih, moments_eq, List.flatMap_cons]

end

section

variable {P : Tracker → List Node → Prop}
  (hmatched : ∀ {t : Tracker} {around : List Node} {ops : List ScopeOp}, Matched ops →
    P t around → P (t.run ops) around)
  (hturned : ∀ {t : Tracker} {around : List Node} (n : Node) (slot : Slot),
    P t (n :: around) → P (t.run (t.onSlot n slot)) (n :: around))
include hmatched hturned

theorem holds_at_slotMoments {base : Tracker} {node : Node} (hbase : Foreign base node)
    {children : List (Slot × Node)} (hsub : ∀ entry ∈ children, entry ∈ node.children)
    (hchild : ∀ entry ∈ children, ∀ {s : State} {t : Tracker}, s.scope = some t →
      Foreign t entry.2 → P t s.ancestors →
        ∀ m ∈ moments s entry.2, ∃ u, m.1.scope = some u ∧ Foreign u m.2 ∧ P u m.1.ancestors)
    {around : List Node} {opened : Bool} {t : Tracker} (hstands : Stands base node opened t)
    (h : P t (node :: around)) :
    ∀ m ∈ slotMoments ⟨some t, node :: around⟩ node children,
      ∃ u, m.1.scope = some u ∧ Foreign u m.2 ∧ P u m.1.ancestors := by
  induction children generalizing opened t with
  | nil => simp [slotMoments]
  | cons entry rest ih =>
    obtain ⟨hentry, hrest⟩ := List.forall_mem_cons.mp hsub
    -- the scope of the node is open at the slot or not; the child owns the innermost one in no case
    obtain ⟨turned, hstands, -⟩ := hstands.onSlot hbase entry.1 Matched
    have hforeign := hstands.foreign hbase hentry
    have hwalked := matched_operations (node :: around) hforeign
    have hin := hturned node entry.1 h
    intro m hm
    rw [slotMoments, visit_state] at hm
    rcases List.mem_append.mp hm with hm | hm
    · exact hchild entry (List.mem_cons_self ..) rfl hforeign hin m hm
    · exact ih hrest (fun e he => hchild e (List.mem_cons_of_mem _ he))
        (hstands.continues (hwalked.continues _)) (hmatched hwalked hin) m hm

/-- What holds at the start, and survives matched operations, going inside a node and going on to
one of its slots, holds at every moment.  No part of the node then owns the innermost scope. -/
theorem holds_at_moments
    (hinside : ∀ {t : Tracker} {around : List Node} (n : Node), P t around → P t (n :: around))
    {root : Node} {s : State} {t : Tracker} (hs : s.scope = some t) (ht : Foreign t root)
    (h : P t s.ancestors) :
    ∀ m ∈ moments s root, ∃ u, m.1.scope = some u ∧ Foreign u m.2 ∧ P u m.1.ancestors := by
  induction root using Node.induction generalizing s t with
  | node root ih =>
    obtain ⟨scope, ancestors⟩ := s
    obtain rfl : scope = some t := hs
    intro m hm
    rw [moments_eq] at hm
    rcases List.mem_cons.mp hm with rfl | hm
    · exact ⟨t, rfl, ht, h⟩
    · have hentered := matched_of_isChange (isChange_onEnter t root ancestors)
      exact holds_at_slotMoments hmatched hturned (ht.onEnter ancestors) (fun _ he => he) ih
        (.refl _ root) (hinside root (hmatched hentered h)) m hm

end

/-- The moment is about a node of the tree, no part of which owns the innermost scope. -/
def Arrives (root : Node) (m : State × Node) : Prop :=
  m.2 ∈ root.nodes ∧ ∃ t, m.1.scope = some t ∧ Foreign t m.2 ∧ t.Valid

/-- At every moment of a walk, the scopes are fit for walking the node. -/
theorem arrives_of_mem_moments {root : Node} {s : State} {t : Tracker} (hs : s.scope = some t)
    (ht : Foreign t root) (hvalid : t.Valid) : ∀ m ∈ moments s root, Arrives root m :=
  fun m hm => ⟨mem_nodes_of_mem_moments hm,
    holds_at_moments (P := fun t _ => t.Valid) (fun _ h => h.run _) (fun _ _ h => h.run _)
      (fun _ h => h) hs ht hvalid m hm⟩

end ScopedWalk

/-! ## Walks of the engine -/

namespace Engine

/-- The engine runs the rules of a tree from the parser at the moments of a walk.  From each moment
at an expression, a `with` or `embed` tag, a macro or a loop without an alternative, walking the
node leaves every name with the binding it had, or without one; the binding may have become used. -/
theorem visit_keeps_names {limit : Nat} {source : Text} {root : Node}
    (hroot : parseTemplate limit source = .ok root) (e : Engine) (ctx : Context)
    (inputs injected : List Text) (report : Bool)
    (hscope : ctx.scope = some (.new inputs injected report)) :
    let moments := ScopedWalk.moments ⟨ctx.scope, ctx.ancestors⟩ root
    (e.visit ctx root).2 = moments.flatMap (ScopedWalk.observed fun scope ancestors node =>
      e.checkNode { ctx with scope, ancestors } node) ∧
    ∀ m ∈ moments, m.2.isConfining = true →
      ∃ t t', m.1.scope = some t ∧
        (e.visit { ctx with scope := m.1.scope, ancestors := m.1.ancestors } m.2).1.scope =
          some t' ∧ KeepsNames t t' := by
  intro moments
  refine ⟨ScopedWalk.visit_observations _ _ root, fun m hm hconfining => ?_⟩
  obtain ⟨hmem, t, ht, hinside, hvalid⟩ := ScopedWalk.arrives_of_mem_moments hscope
    (foreign_new inputs injected report root) (valid_new inputs injected report) m hm
  have hconfined := tidy_of_parseTemplate hroot m.2 hmem hconfining
  refine ⟨t, _, ht, ?_, hconfined.keepsNames hinside hvalid m.1.ancestors⟩
  rw [visit_context, ht]
  rfl

/-- A `with` tag in which a new name is assigned to. -/
theorem visit_keeps_names_with :
    let e : Engine := ⟨⟨[], true⟩, []⟩
    let ctx : Context := ⟨[], [], some (.new [[97]] [] true), [], []⟩
    ∃ root, parseTemplate 8 "\x7b% with a %\x7d\x7b% set b=1 %\x7d\x7b% endwith %\x7d" = .ok root ∧
      ∃ m ∈ ScopedWalk.moments ⟨ctx.scope, ctx.ancestors⟩ root, m.2.kind = .withTag ∧
        ∃ t t', m.1.scope = some t ∧
          (e.visit { ctx with scope := m.1.scope, ancestors := m.1.ancestors } m.2).1.scope =
            some t' ∧ KeepsNames t t' := by
  intro e ctx
  have hfound : (match
        parseTemplate 8 "\x7b% with a %\x7d\x7b% set b=1 %\x7d\x7b% endwith %\x7d" with
      | .ok root => (ScopedWalk.moments ⟨some (.new [[97]] [] true), []⟩ root).any
          fun m => decide (m.2.kind = .withTag)
      | .error _ => false) = true := by decide +kernel
  cases hroot : parseTemplate 8 "\x7b% with a %\x7d\x7b% set b=1 %\x7d\x7b% endwith %\x7d" with
  | error e =>
    rw [hroot] at hfound
    cases hfound
  | ok root =>
    rw [hroot] at hfound
    obtain ⟨m, hm, hkind⟩ := List.any_eq_true.mp hfound
    have htag : m.2.kind = .withTag := of_decide_eq_true hkind
    have hconfining : m.2.isConfining = true := by
      rw [Node.isConfining, htag]
      rfl
    exact ⟨root, rfl, m, hm, htag,
      (visit_keeps_names hroot e ctx [[97]] [] true rfl).2 m hm hconfining⟩

end Engine

end TwigLint
