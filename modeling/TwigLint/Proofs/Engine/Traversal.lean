import TwigLint.Proofs.Engine.Copies
import TwigLint.Proofs.Template.Construction

/-! # Two traversals of a tree

The engine finds the children of a node under the names of its slots, and keeps a stack of the nodes
around; other traversals go through the children as they are stored.  On constructed trees both come
to the same nodes in the same order, and the stack is the way back to the root.
-/

namespace TwigLint

open ScopedWalk

namespace Node

/-! ## Visiting -/

/-- The visitor that records the nodes that it enters. -/
def recorder : Visitor (List Node) Empty where
  enter seen node := (seen ++ [node], .descend)
  leave seen _ := (seen, none)

theorem walkAll_recorder {children : List (Slot × Node)} (h : ∀ entry ∈ children,
    ∀ seen, entry.2.walk recorder seen = (seen ++ entry.2.nodes, none)) (seen : List Node) :
    walkAll recorder seen children = (seen ++ inspectAll (fun _ => true) children, none) := by
  induction children generalizing seen with
  | nil => simp [walkAll, inspectAll]
  | cons entry rest ih =>
    obtain ⟨hentry, hrest⟩ := List.forall_mem_cons.mp h
    simp [walkAll, inspectAll, hentry, ih hrest, nodes]

/-- A traversal enters the nodes of a tree in pre-order. -/
theorem walk_recorder (n : Node) (seen : List Node) :
    n.walk recorder seen = (seen ++ n.nodes, none) := by
  induction n using Node.induction generalizing seen with
  | node n ih =>
    have hchildren := walkAll_recorder ih (seen ++ [n])
    obtain ⟨kind, location, attrs, children⟩ := n
    rw [walk]
    simp only [recorder] at hchildren ⊢
    simp [hchildren, nodes, inspect]

/-! ## Paths -/

mutual
/-- The paths from the root to the nodes of a tree, in pre-order. -/
def paths : Node → List (List Slot)
  | ⟨_, _, _, children⟩ => [] :: slotPaths children

/-- The paths through some children of a node. -/
def slotPaths : List (Slot × Node) → List (List Slot)
  | [] => []
  | (slot, child) :: rest => (paths child).map (slot :: ·) ++ slotPaths rest
end

theorem paths_eq (n : Node) : n.paths = [] :: slotPaths n.children := by
  obtain ⟨kind, location, attrs, children⟩ := n
  rw [paths]

theorem slotPaths_eq (children : List (Slot × Node)) :
    slotPaths children = children.flatMap fun entry => entry.2.paths.map (entry.1 :: ·) := by
  induction children with
  | nil => simp [slotPaths]
  | cons entry rest ih => simp [slotPaths, ih]

theorem mem_slotPaths {children : List (Slot × Node)} {slot : Slot} {path : List Slot} :
    slot :: path ∈ slotPaths children ↔
      ∃ entry ∈ children, entry.1 = slot ∧ path ∈ entry.2.paths := by
  simp [slotPaths_eq]

/-- The nodes at the proper beginnings of a path, the longest first. -/
def enclosing (root : Node) (path : List Slot) : List Node :=
  (List.range path.length).reverse.filterMap fun k => root.at? (path.take k)

theorem enclosing_cons {root child : Node} {slot : Slot} (h : root.child? slot = some child)
    (path : List Slot) : root.enclosing (slot :: path) = child.enclosing path ++ [root] := by
  have hat (k : Nat) : root.at? ((slot :: path).take (k + 1)) = child.at? (path.take k) := by
    simp [at?, h]
  have hroot : root.at? ((slot :: path).take 0) = some root := rfl
  rw [enclosing, List.length_cons, List.range_succ_eq_map, List.reverse_cons,
    List.filterMap_append, ← List.map_reverse, List.filterMap_map]
  simp only [Function.comp_def, Nat.succ_eq_add_one, hat, List.filterMap_cons, hroot,
    List.filterMap_nil, enclosing]

/-- Every node of the tree is orderly. -/
def AllOrderly (root : Node) : Prop := ∀ n ∈ root.nodes, n.Orderly

namespace AllOrderly

variable {root : Node}

theorem self (h : root.AllOrderly) : root.Orderly := h root root.self_mem_nodes

theorem child (h : root.AllOrderly) {entry : Slot × Node} (hentry : entry ∈ root.children) :
    entry.2.AllOrderly := fun n hn => h n (mem_nodes_of_child hentry hn)

/-- There is a path to every node, and at the end of every path there is one. -/
theorem mem_paths (h : root.AllOrderly) (path : List Slot) :
    path ∈ root.paths ↔ (root.at? path).isSome := by
  induction path generalizing root with
  | nil => simp [paths_eq, at?]
  | cons slot path ih =>
    rw [paths_eq, List.mem_cons, mem_slotPaths, at?]
    constructor
    · intro hpath
      obtain ⟨entry, hentry, rfl, hrest⟩ := hpath.resolve_left (List.cons_ne_nil slot path)
      rw [h.self.child?_eq hentry, Option.bind_some]
      exact (ih (h.child hentry)).mp hrest
    · intro hsome
      obtain ⟨found, hfound⟩ := Option.isSome_iff_exists.mp hsome
      obtain ⟨child, hchild, hpath⟩ := Option.bind_eq_some_iff.mp hfound
      have hentry := mem_children_of_child? hchild
      have hrest := (ih (h.child hentry)).mpr (Option.isSome_of_mem hpath)
      exact .inr ⟨(slot, child), hentry, rfl, hrest⟩

/-- No path is there twice. -/
theorem nodup_paths (h : root.AllOrderly) : root.paths.Nodup := by
  induction root using Node.induction with
  | node root ih =>
    rw [paths_eq, List.nodup_cons, slotPaths_eq, List.nodup_flatMap]
    refine ⟨by simp, fun entry hentry => ?_, ?_⟩
    · exact (ih entry hentry (h.child hentry)).map fun p q heq => (List.cons.inj heq).2
    · have hslots := List.pairwise_map.mp h.self.nodup
      apply hslots.imp
      intro entry entry' hne p hp hp'
      simp only [List.mem_map] at hp hp'
      obtain ⟨rest, -, rfl⟩ := hp
      obtain ⟨rest', -, heq⟩ := hp'
      exact hne (List.cons.inj heq).1.symm

end AllOrderly

end Node

/-! ## Moments of a walk -/

namespace ScopedWalk

/-- The node of a moment stands at the end of a path, and around it are the nodes on the way. -/
def On (root : Node) (outer : List Node) (m : State × Node) (path : List Slot) : Prop :=
  root.at? path = some m.2 ∧ m.1.ancestors = root.enclosing path ++ outer

theorem On.child {root child : Node} {slot : Slot} (h : root.child? slot = some child)
    {outer : List Node} {m : State × Node} {path : List Slot}
    (hm : On child (root :: outer) m path) : On root outer m (slot :: path) := by
  obtain ⟨hnode, hancestors⟩ := hm
  constructor
  · simpa [Node.at?, h] using hnode
  · rw [hancestors, Node.enclosing_cons h, List.append_assoc, List.singleton_append]

theorem slotMoments_paths {root : Node} (h : root.Orderly) {children : List (Slot × Node)}
    (hsub : ∀ entry ∈ children, entry ∈ root.children)
    (hchild : ∀ entry ∈ children, ∀ s : State,
      List.Forall₂ (On entry.2 s.ancestors) (moments s entry.2) entry.2.paths)
    {outer : List Node} {s : State} (hs : s.ancestors = root :: outer) :
    List.Forall₂ (On root outer) (slotMoments s root children) (Node.slotPaths children) := by
  induction children generalizing s with
  | nil => simp [slotMoments, Node.slotPaths]
  | cons entry rest ih =>
    obtain ⟨hentry, hrest⟩ := List.forall_mem_cons.mp hsub
    rw [slotMoments, Node.slotPaths]
    apply List.rel_append
    · rw [List.forall₂_map_right_iff]
      apply (hchild entry (List.mem_cons_self ..) _).imp
      intro m path hm
      rw [State.update_ancestors, hs] at hm
      exact hm.child (h.child?_eq hentry)
    · apply ih hrest fun e he => hchild e (List.mem_cons_of_mem _ he)
      rw [visit_state]
      exact hs

/-- A walk goes along the paths of a tree, one after another. -/
theorem moments_paths {root : Node} (h : root.AllOrderly) (s : State) :
    List.Forall₂ (On root s.ancestors) (moments s root) root.paths := by
  induction root using Node.induction generalizing s with
  | node root ih =>
    rw [moments_eq, Node.paths_eq]
    apply List.Forall₂.cons
    · exact ⟨rfl, rfl⟩
    · exact slotMoments_paths h.self (fun _ he => he)
        (fun entry he => ih entry he (h.child he)) rfl

/-! ## Children by name -/

section Named

variable {α : Type} (observe : Observer α)

mutual
/-- Walks a tree, looking up the children of every node under the names of its slots. -/
def visitNamed (s : State) (node : Node) : State × List α :=
  let s := s.update fun t => t.onEnter node s.ancestors
  let seen := observe s.scope s.ancestors node
  let (s, inner) := visitNames (s.push node) node node.names
  (s.pop.update fun t => t.onLeave node, seen ++ inner)
termination_by (sizeOf node, node.names.length + 1)

/-- Walks the children of a node under the given names; a name without a child is left out. -/
def visitNames (s : State) (node : Node) : List String → State × List α
  | [] => (s, [])
  | name :: rest =>
    match _h : node.named? name with
    | none => visitNames s node rest
    | some child =>
      let (s, seen) := visitNamed (s.update fun t => t.onSlot node (.ofLabel name)) child
      let (s, inner) := visitNames s node rest
      (s, seen ++ inner)
termination_by names => (sizeOf node, names.length)
decreasing_by
  · simp [Prod.lex_def]
  · exact Prod.Lex.left _ _ (Node.sizeOf_child_lt (Node.mem_children_of_child? _h))
  · simp [Prod.lex_def]
end

theorem visitNames_eq {root : Node} (h : root.Orderly) {children : List (Slot × Node)}
    (hsub : ∀ entry ∈ children, entry ∈ root.children)
    (hchild : ∀ entry ∈ children, ∀ s, visitNamed observe s entry.2 = visit observe s entry.2)
    (s : State) : visitNames observe s root (children.map fun entry => entry.1.label) =
      visitSlots observe s root children := by
  induction children generalizing s with
  | nil => rw [List.map_nil, visitNames, visitSlots]
  | cons entry rest ih =>
    obtain ⟨hentry, hrest⟩ := List.forall_mem_cons.mp hsub
    obtain ⟨slot, child⟩ := entry
    have hnamed : root.named? slot.label = some child := h.named?_eq hentry
    have hproper : Slot.ofLabel slot.label = slot := h.proper slot (List.mem_map_of_mem hentry)
    have hvisit := hchild (slot, child) (List.mem_cons_self ..)
    have hbehind := ih hrest fun e he => hchild e (List.mem_cons_of_mem _ he)
    rw [List.map_cons, visitNames, visitSlots]
    split
    · rename_i hnone
      rw [hnamed] at hnone
      cases hnone
    · rename_i found hsome
      obtain rfl : child = found := Option.some.inj (hnamed ▸ hsome)
      simp only [hproper, hvisit, hbehind]

/-- On orderly trees looking up children makes no difference. -/
theorem visitNamed_eq {root : Node} (h : root.AllOrderly) (s : State) :
    visitNamed observe s root = visit observe s root := by
  induction root using Node.induction generalizing s with
  | node root ih =>
    have hchildren := visitNames_eq observe h.self (fun _ he => he)
      fun entry he => ih entry he (h.child he)
    have hnames : root.names = root.children.map fun entry => entry.1.label := by
      simp [Node.names, Node.slots]
    rw [visitNamed, hnames, hchildren]
    obtain ⟨kind, location, attrs, children⟩ := root
    rw [visit]

end Named

end ScopedWalk

/-! ## Runs of rules -/

namespace Engine

/-- What the rules look at: the nodes of a tree in the order of a walk, with the context of each. -/
def visits (ctx : Context) (root : Node) : List (Context × Node) :=
  (moments ⟨ctx.scope, ctx.ancestors⟩ root).map fun m => (ctx.atMoment m, m.2)

/-- Runs the rules of a tree, looking up children under the names of slots. -/
def visitNamed (e : Engine) (ctx : Context) (root : Node) : Context × List CheckRun :=
  let observe scope ancestors node := e.checkNode { ctx with scope, ancestors } node
  let (s, runs) := ScopedWalk.visitNamed observe ⟨ctx.scope, ctx.ancestors⟩ root
  ({ ctx with scope := s.scope, ancestors := s.ancestors }, runs)

/-- The rules look at the node at the end of a path.  The nodes around are those on the way there
from the root, the parent is the first of them, and the nearest with a property is the first of them
that has it. -/
structure LooksAt (root : Node) (outer : List Node) (v : Context × Node) (path : List Slot) :
    Prop where
  node : root.at? path = some v.2
  ancestors : v.1.ancestors = root.enclosing path ++ outer
  parent : v.1.parent? = (root.enclosing path ++ outer).head?
  nearest : ∀ p, v.1.nearest? p = (root.enclosing path ++ outer).find? p

theorem visits_nodes (ctx : Context) (root : Node) :
    (visits ctx root).map Prod.snd = root.nodes := by
  rw [← moments_nodes ⟨ctx.scope, ctx.ancestors⟩ root, visits, List.map_map]
  rfl

theorem visits_paths {root : Node} (h : root.AllOrderly) (ctx : Context) :
    List.Forall₂ (LooksAt root ctx.ancestors) (visits ctx root) root.paths := by
  rw [visits, List.forall₂_map_left_iff]
  apply (moments_paths h ⟨ctx.scope, ctx.ancestors⟩).imp
  intro m path hm
  obtain ⟨hnode, hancestors⟩ := hm
  have hcontext : (ctx.atMoment m).ancestors = root.enclosing path ++ ctx.ancestors := hancestors
  constructor
  · exact hnode
  · exact hcontext
  · rw [← hcontext, Context.parent?]
  · intro p
    rw [← hcontext, Context.nearest?]

theorem runs_visits (e : Engine) (ctx : Context) (root : Node) :
    (e.visit ctx root).2 = (visits ctx root).flatMap fun v => e.checkNode v.1 v.2 := by
  rw [visits, List.flatMap_map]
  exact visit_observations _ _ root

/-- The output is that of the rules of each node's kind, without those that are disabled. -/
theorem output_visits (e : Engine) (ctx : Context) (root : Node) :
    e.output ctx root = (visits ctx root).flatMap fun v =>
      (e.registry.rulesFor v.2.kind).flatMap fun r =>
        if e.disabled.contains r.name then [] else r.contribution v.1 v.2 := by
  have hrules (kind : Kind) (f : Rule → List Diagnostic) : (e.rulesAt kind).flatMap f =
      (e.registry.rulesFor kind).flatMap fun r =>
        if e.disabled.contains r.name then [] else f r := by
    rw [rulesAt]
    induction e.registry.rulesFor kind with
    | nil => rfl
    | cons r rest ih => by_cases hr : e.disabled.contains r.name <;> simp_all
  rw [output_eq, visits, List.flatMap_map]
  simp only [hrules]

/-- Everything in the output is an answer of a rule that looked at a node, or the notice that a rule
broke off there. -/
theorem mem_output_visits (e : Engine) (ctx : Context) (root : Node) (d : Diagnostic) :
    d ∈ e.output ctx root ↔ ∃ v ∈ visits ctx root, ∃ r ∈ e.registry.rulesFor v.2.kind,
      r.name ∉ e.disabled ∧
        ((∃ ds, r.check { v.1 with rule := r.name } v.2 = .ok ds ∧
            ∃ found ∈ ds,
              (if found.rule.isEmpty then { found with rule := r.name } else found) = d) ∨
          ∃ reason, r.check { v.1 with rule := r.name } v.2 = .error reason ∧
            d = r.failureNotice v.1.id v.2 reason) := by
  simp only [← Rule.mem_contribution, output_visits, List.mem_flatMap]
  simp

/-- Both traversals agree on every tree that is built from parts and lists.  At each node no name of
a slot occurs twice, and under the names are the children, in their order.  Walking by name is
walking along the children.  The rules look at the nodes that a visitor enters, in the same order,
once at the end of every path, and in each context the nodes around are those on the way there.  The
output has what the rules of each kind find, one node after another. -/
theorem traversals_agree {root : Node} (h : root.Constructed) (e : Engine) (ctx : Context) :
    (∀ n ∈ root.nodes, n.names.Nodup ∧
      n.names.map n.named? = n.children.map fun entry => some entry.2) ∧
    e.visitNamed ctx root = e.visit ctx root ∧
    (visits ctx root).map Prod.snd = (root.walk Node.recorder []).1 ∧
    (root.paths.Nodup ∧ ∀ path, path ∈ root.paths ↔ (root.at? path).isSome) ∧
    List.Forall₂ (LooksAt root ctx.ancestors) (visits ctx root) root.paths ∧
    (e.visit ctx root).2 = (visits ctx root).flatMap (fun v => e.checkNode v.1 v.2) ∧
    e.output ctx root = (visits ctx root).flatMap fun v =>
      (e.registry.rulesFor v.2.kind).flatMap fun r =>
        if e.disabled.contains r.name then [] else r.contribution v.1 v.2 := by
  have horderly : root.AllOrderly := h.orderly
  have hnamed : e.visitNamed ctx root = e.visit ctx root := by
    simp only [visitNamed, visit, visitNamed_eq _ horderly]
  have hnodes : (visits ctx root).map Prod.snd = (root.walk Node.recorder []).1 := by
    rw [visits_nodes, Node.walk_recorder, List.nil_append]
  exact ⟨fun n hn => ⟨(horderly n hn).nodup_names, (horderly n hn).map_named?⟩, hnamed, hnodes,
    ⟨horderly.nodup_paths, horderly.mem_paths⟩, visits_paths horderly ctx, e.runs_visits ctx root,
    e.output_visits ctx root⟩

/-- A slot that is filled twice, and a list with an absent entry. -/
theorem traversals_agree_refilled :
    let name : Node := .build .name .start [.attr "name" (.text "a")]
    let pair : Node := .list .body .start [none, some name, some name]
    let root : Node := .build .print .start [.child "expr" (some name), .child "0" none,
      .child "node" (some name), .child "expr" (some pair)]
    let e : Engine := ⟨⟨[], true⟩, []⟩
    let ctx : Context := ⟨[], [], none, [], []⟩
    root.Constructed ∧ root.names = ["expr", "node"] ∧
      root.paths = [[], [.expr], [.expr, .item 0], [.expr, .item 1], [.node]] ∧
      e.visitNamed ctx root = e.visit ctx root ∧
      List.Forall₂ (LooksAt root []) (visits ctx root) root.paths := by
  intro name pair root e ctx
  have hname : name.Constructed := .build (by simp)
  have hpair : pair.Constructed := by
    apply Node.Constructed.list
    simp [hname]
  have hroot : root.Constructed := by
    apply Node.Constructed.build
    simp only [List.mem_cons, Node.Part.child.injEq, Option.some.injEq, List.not_mem_nil, or_false]
    rintro slot child (⟨-, rfl⟩ | ⟨-, hnone⟩ | ⟨-, rfl⟩ | ⟨-, rfl⟩)
    · exact hname
    · cases hnone
    · exact hname
    · exact hpair
  obtain ⟨-, hnamed, -, -, hlooks, -⟩ := traversals_agree hroot e ctx
  exact ⟨hroot, by decide +kernel, by decide +kernel, hnamed, hlooks⟩

end Engine

end TwigLint
