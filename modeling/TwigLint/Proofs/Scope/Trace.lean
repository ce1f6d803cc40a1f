import TwigLint.Lint.Engine
import TwigLint.Proofs.Scope.Run
import TwigLint.Proofs.Template.Tree

/-! # The operations of a walk

The scope operations that walking a tree performs, in their order.  A node that opens a scope closes
it at one of its later slots or when it is left, so the operations are matched: whatever the tree
and the rules are, the scopes that are open after a walk are those that were open before it.
-/

namespace TwigLint

namespace Tracker

/-! ## Operations -/

mutual
/-- The operations of walking a tree. -/
def operations (t : Tracker) (ancestors : List Node) : Node → List ScopeOp
  | ⟨kind, location, attrs, children⟩ =>
    let node : Node := ⟨kind, location, attrs, children⟩
    let entered := t.onEnter node ancestors
    let inner := slotOperations (t.run entered) (node :: ancestors) node children
    entered ++ inner ++ ((t.run entered).run inner).onLeave node

/-- The operations of walking the children of a node from some slot on. -/
def slotOperations (t : Tracker) (ancestors : List Node) (node : Node) :
    List (Slot × Node) → List ScopeOp
  | [] => []
  | (slot, child) :: rest =>
    let turned := t.onSlot node slot
    let walked := operations (t.run turned) ancestors child
    turned ++ walked ++ slotOperations ((t.run turned).run walked) ancestors node rest
end

theorem operations_eq (t : Tracker) (ancestors : List Node) (node : Node) :
    t.operations ancestors node =
      t.onEnter node ancestors ++
        (t.run (t.onEnter node ancestors)).slotOperations (node :: ancestors) node node.children ++
        ((t.run (t.onEnter node ancestors)).run ((t.run (t.onEnter node ancestors)).slotOperations
          (node :: ancestors) node node.children)).onLeave node := by
  obtain ⟨kind, location, attrs, children⟩ := node
  rw [operations]

/-- The operations of walking children are those of going on to their slots and of walking them. -/
theorem mem_slotOperations {ancestors : List Node} {node : Node} {children : List (Slot × Node)}
    {op : ScopeOp} {t : Tracker} (h : op ∈ t.slotOperations ancestors node children) :
    ∃ entry ∈ children, ∃ t : Tracker, op ∈ t.onSlot node entry.1 ∨
      op ∈ t.operations ancestors entry.2 := by
  induction children generalizing t with
  | nil => cases h
  | cons entry rest ih =>
    rw [slotOperations, List.append_assoc] at h
    rcases List.mem_append.mp h with hturned | h
    · exact ⟨entry, List.mem_cons_self .., t, .inl hturned⟩
    rcases List.mem_append.mp h with hwalked | hrest
    · exact ⟨entry, List.mem_cons_self .., _, .inr hwalked⟩
    · obtain ⟨e, he, hop⟩ := ih hrest
      exact ⟨e, List.mem_cons_of_mem _ he, hop⟩

theorem slotOperations_congr {ancestors ancestors' : List Node} {node : Node}
    {children : List (Slot × Node)} (h : ∀ entry ∈ children, ∀ t : Tracker,
      t.operations ancestors entry.2 = t.operations ancestors' entry.2) (t : Tracker) :
    t.slotOperations ancestors node children = t.slotOperations ancestors' node children := by
  induction children generalizing t with
  | nil => rfl
  | cons entry rest ih =>
    obtain ⟨hentry, hrest⟩ := List.forall_mem_cons.mp h
    rw [slotOperations, slotOperations, hentry, ih hrest]

/-! ## Scopes of a node -/

/-- Nodes of this kind open a scope at some of their slots. -/
def opensScope : Kind → Bool
  | .forTag | .arrow | .macroTag | .embedTag | .withTag => true
  | _ => false

/-- The body of the node sees no names from outside: macros, and `embed` and `with` tags with
`only`. -/
def isolates (n : Node) : Bool :=
  n.kind == .macroTag || (n.kind == .embedTag || n.kind == .withTag) && n.boolAttr .only

/-- A node that binds its name declares it in one of three ways or assigns to it. -/
theorem bindTarget_cases (node : Node) (ancestors : List Node) :
    bindTarget node ancestors ∈ [ScopeOp.declare node.name node.line,
      .declareParam node.name node.line, .declareImport node.name node.line,
      .assign node.name node.line] := by
  fun_cases bindTarget node ancestors <;> simp

theorem isChange_bindTarget (node : Node) (ancestors : List Node) :
    (bindTarget node ancestors).isChange = true := by
  fun_cases bindTarget node ancestors <;> rfl

theorem isChange_onEnter (t : Tracker) (node : Node) (ancestors : List Node) :
    ∀ op ∈ t.onEnter node ancestors, op.isChange = true := by
  fun_cases onEnter t node ancestors with
  | case1 => simp [ScopeOp.isChange]
  | case2 => simp [ScopeOp.isChange]
  | case3 => simp
  | case4 => simp [isChange_bindTarget]
  | case5 => simp

theorem isChange_declareKeys {context : Option Node} :
    ∀ op ∈ declareKeys context, op.isChange = true := by
  intro op hop
  unfold declareKeys at hop
  split at hop
  · split at hop
    · obtain ⟨key, -, rfl⟩ := List.mem_map.mp hop
      rfl
    · simp at hop
  · simp at hop

/-- What going on to a slot can do: nothing, close the scope of the node, or open it; the scope is
isolated only if the node isolates. -/
theorem onSlot_cases (t : Tracker) (node : Node) (slot : Slot) :
    t.onSlot node slot = [] ∨
      opensScope node.kind = true ∧ (t.onSlot node slot = t.closing node ∨
        ∃ isolated prepare, (isolated = true → isolates node = true) ∧
          (∀ op ∈ prepare, op.isChange = true) ∧
          t.onSlot node slot = t.opening node isolated prepare) := by
  have hkind {kind : Kind} (h : node.kind = kind) (hopens : opensScope kind = true) :
      opensScope node.kind = true := by rw [h, hopens]
  have hinject (name : Text) : ∀ op ∈ [ScopeOp.inject name], op.isChange = true := by
    simp [ScopeOp.isChange]
  fun_cases onSlot t node slot with
  | case1 h => exact .inr ⟨hkind h rfl, .inr ⟨_, _, by simp, hinject _, rfl⟩⟩
  | case2 h => exact .inr ⟨hkind h rfl, .inr ⟨_, _, by simp, hinject _, rfl⟩⟩
  | case3 h => exact .inr ⟨hkind h rfl, .inr ⟨_, _, by simp, hinject _, rfl⟩⟩
  | case4 h => exact .inr ⟨hkind h rfl, .inl rfl⟩
  | case6 slot h => exact .inr ⟨hkind h rfl, .inr ⟨_, _, by simp, by simp, rfl⟩⟩
  | case7 slot h =>
    exact .inr ⟨hkind h rfl, .inr ⟨_, _, by simp [isolates, h], hinject _, rfl⟩⟩
  | case8 h =>
    exact .inr ⟨hkind h rfl, .inr ⟨_, _, by simp [isolates, h], isChange_declareKeys, rfl⟩⟩
  | case10 h =>
    exact .inr ⟨hkind h rfl, .inr ⟨_, _, by simp [isolates, h], isChange_declareKeys, rfl⟩⟩
  | _ => exact .inl rfl

/-- Leaving a node closes its scope. -/
theorem onLeave_eq (t : Tracker) (node : Node) :
    t.onLeave node = if opensScope node.kind then t.closing node else [] := by
  unfold onLeave
  cases node.kind <;> rfl

/-! ## Slots of a node -/

/-- A property of lists of operations that holds of matched scopes. -/
structure Closed (P : List ScopeOp → Prop) : Prop where
  nil : P []
  append {ops ops' : List ScopeOp} : P ops → P ops' → P (ops ++ ops')
  scope {isolated : Bool} {owner : Option Node} {ops ops' : List ScopeOp} :
    Matched ops → P ops' → P (.push isolated owner :: ops ++ .pop :: ops')

theorem closed_matched : Closed Matched := ⟨.nil, .append, .scope⟩

theorem closed_contained : Closed Contained := ⟨.nil, .append, .scope⟩

/-- The operations of a walk over some slots of a node.  The flags tell whether the scope of the
node is open before and after them; outside of it, the operations of a child satisfy `P`. -/
inductive Turns (P : List ScopeOp → Prop) (node : Node) : Bool → List ScopeOp → Bool → Prop
  | stop (opened : Bool) : Turns P node opened [] opened
  | inner {opened opened' : Bool} {ops ops' : List ScopeOp} (h : Matched ops)
      (outside : opened = false → P ops) (rest : Turns P node opened ops' opened') :
      Turns P node opened (ops ++ ops') opened'
  | opens {isolated opened' : Bool} {ops : List ScopeOp} (rest : Turns P node true ops opened') :
      Turns P node false (.push isolated (some node) :: ops) opened'
  | closes {opened' : Bool} {ops : List ScopeOp} (rest : Turns P node false ops opened') :
      Turns P node true (.pop :: ops) opened'

/-- The pending closing of a scope. -/
def pendingPop (opened : Bool) : List ScopeOp := if opened then [.pop] else []

/-- The operations, with the pending closing of the scope, from a state in which the scope of the
node is open or not. -/
def Completes (P : List ScopeOp → Prop) (ops : List ScopeOp) : (opened : Bool) → Prop
  | false => P ops
  | true => ∃ first rest, ops = first ++ .pop :: rest ∧ Matched first ∧ P rest

theorem Turns.completes {P : List ScopeOp → Prop} (hP : Closed P) {node : Node}
    {opened opened' : Bool} {ops : List ScopeOp} (h : Turns P node opened ops opened') :
    Completes P (ops ++ pendingPop opened') opened := by
  induction h with
  | stop opened =>
    cases opened with
    | false => exact hP.nil
    | true => exact ⟨[], [], rfl, .nil, hP.nil⟩
  | @inner opened _ ops _ h outside _ ih =>
    rw [List.append_assoc]
    cases opened with
    | false => exact hP.append (outside rfl) ih
    | true =>
      obtain ⟨first, rest, heq, hfirst, hrest⟩ := ih
      exact ⟨ops ++ first, rest, by rw [heq, List.append_assoc], h.append hfirst, hrest⟩
  | opens _ ih =>
    obtain ⟨first, rest, heq, hfirst, hrest⟩ := ih
    rw [List.cons_append, heq]
    exact hP.scope hfirst hrest
  | closes _ ih => exact ⟨[], _, rfl, .nil, ih⟩

/-! ## Owners -/

/-- The owners of the open scopes, innermost first. -/
def owners (t : Tracker) : List (Option Node) := t.scopes.map Scope.owner

theorem owners_eq (t : Tracker) : t.owners = t.current.owner :: t.outer.map Scope.owner := rfl

theorem Continues.owners {t t' : Tracker} (h : Continues t t') : t'.owners = t.owners := by
  rw [owners_eq, owners_eq, h.owner, h.outer]

theorem owners_pop {t : Tracker} {o o' : Option Node} {os : List (Option Node)}
    (h : t.owners = o :: o' :: os) : t.pop.owners = o' :: os := by
  obtain ⟨-, houter⟩ := List.cons.inj h
  unfold pop
  split
  · rename_i hnil
    rw [hnil] at houter
    cases houter
  · rename_i s rest hcons
    rw [hcons] at houter
    exact houter

/-- The innermost scope is owned by no node of the tree. -/
def Foreign (t : Tracker) (n : Node) : Prop := ∀ m ∈ n.nodes, t.current.owner ≠ some m

/-- The tracker has the scopes of `base` open, and above them the scope of the node if `opened`. -/
structure Stands (base : Tracker) (node : Node) (opened : Bool) (t : Tracker) : Prop where
  owners : t.owners = if opened then some node :: base.owners else base.owners
  opensScope : opened = true → opensScope node.kind = true

theorem Foreign.onEnter {t : Tracker} {n : Node} (h : Foreign t n) (ancestors : List Node) :
    Foreign (t.run (t.onEnter n ancestors)) n := by
  intro m hm
  rw [((matched_of_isChange (isChange_onEnter t n ancestors)).continues t).owner]
  exact h m hm

theorem Stands.refl (base : Tracker) (node : Node) : Stands base node false base := ⟨rfl, by simp⟩

theorem Stands.continues {base t t' : Tracker} {node : Node} {opened : Bool}
    (h : Stands base node opened t) (ht : Continues t t') : Stands base node opened t' :=
  ⟨ht.owners.trans h.owners, h.opensScope⟩

section Slots

variable {base : Tracker} {node : Node} (hbase : Foreign base node)
include hbase

/-- The scope of the node is open exactly if it is the innermost one. -/
theorem Stands.owner_iff {opened : Bool} {t : Tracker} (h : Stands base node opened t) :
    t.current.owner = some node ↔ opened = true := by
  have howners := h.owners
  rw [owners_eq] at howners
  cases opened with
  | false =>
    have hcurrent : t.current.owner = base.current.owner := (List.cons.inj howners).1
    simpa [hcurrent] using hbase node node.self_mem_nodes
  | true => simpa using (List.cons.inj howners).1

/-- The innermost scope is owned by no node below a slot. -/
theorem Stands.foreign {opened : Bool} {t : Tracker} (h : Stands base node opened t)
    {entry : Slot × Node} (hentry : entry ∈ node.children) : Foreign t entry.2 := by
  intro m hm
  have howners := h.owners
  rw [owners_eq] at howners
  cases opened with
  | false =>
    rw [(List.cons.inj howners).1]
    exact hbase m (Node.mem_nodes_of_child hentry hm)
  | true =>
    rw [(List.cons.inj howners).1]
    rintro ⟨⟩
    exact Node.not_mem_nodes_child hentry hm

/-- Going on to a slot leaves the scope of the node as it is, opens it or closes it. -/
theorem Stands.onSlot {opened : Bool} {t : Tracker} (h : Stands base node opened t) (slot : Slot)
    (P : List ScopeOp → Prop) :
    ∃ turned, Stands base node turned (t.run (t.onSlot node slot)) ∧
      ∀ {ops : List ScopeOp} {opened' : Bool}, Turns P node turned ops opened' →
        Turns P node opened (t.onSlot node slot ++ ops) opened' := by
  rcases onSlot_cases t node slot with heq | ⟨hopens, heq | ⟨isolated, prepare, -, hprepare, heq⟩⟩
  · rw [heq]
    exact ⟨opened, h, fun rest => rest⟩
  · rw [heq, closing]
    by_cases howner : t.current.owner = some node
    · obtain rfl := (h.owner_iff hbase).mp howner
      rw [if_pos howner]
      exact ⟨false, ⟨owners_pop h.owners, by simp⟩, .closes⟩
    · rw [if_neg howner]
      exact ⟨opened, h, fun rest => rest⟩
  · rw [heq, opening]
    by_cases howner : t.current.owner = some node
    · rw [if_pos howner]
      exact ⟨opened, h, fun rest => rest⟩
    · obtain rfl : opened = false := by simpa [h.owner_iff hbase] using howner
      have hmatched := matched_of_isChange hprepare
      have hpushed : Stands base node true (t.push isolated (some node)) :=
        ⟨congrArg (some node :: ·) h.owners, fun _ => hopens⟩
      rw [if_neg howner]
      exact ⟨true, hpushed.continues (hmatched.continues _),
        fun rest => .opens (.inner hmatched (by simp) rest)⟩

/-- The operations of the children of a node, when those of each child are matched and satisfy `P`
outside of the scope of the node. -/
theorem turns_slotOperations {P : List ScopeOp → Prop} {children : List (Slot × Node)}
    (hsub : ∀ entry ∈ children, entry ∈ node.children)
    (hmatched : ∀ entry ∈ children, ∀ (t : Tracker) (ancestors : List Node),
      Foreign t entry.2 → Matched (t.operations ancestors entry.2))
    (houtside : ∀ entry ∈ children, ∀ (t : Tracker) (ancestors : List Node),
      (t.run (t.onSlot node entry.1)).current.owner ≠ some node →
        Foreign (t.run (t.onSlot node entry.1)) entry.2 →
          P ((t.run (t.onSlot node entry.1)).operations ancestors entry.2))
    (ancestors : List Node) {opened : Bool} {t : Tracker} (h : Stands base node opened t) :
    ∃ opened', Turns P node opened (t.slotOperations ancestors node children) opened' ∧
      Stands base node opened' (t.run (t.slotOperations ancestors node children)) := by
  induction children generalizing opened t with
  | nil => exact ⟨opened, .stop opened, h⟩
  | cons entry rest ih =>
    have hentry := List.mem_cons_self (a := entry) (l := rest)
    obtain ⟨turned, hturned, hturns⟩ := h.onSlot hbase entry.1 P
    have hforeign := hturned.foreign hbase (hsub entry hentry)
    have hchild := hmatched entry hentry _ ancestors hforeign
    have hout (hclosed : turned = false) :
        P ((t.run (t.onSlot node entry.1)).operations ancestors entry.2) := by
      refine houtside entry hentry t ancestors ?_ hforeign
      rw [Ne, hturned.owner_iff hbase, hclosed]
      simp
    obtain ⟨opened', hrest, hstands⟩ := ih (fun e he => hsub e (List.mem_cons_of_mem _ he))
      (fun e he => hmatched e (List.mem_cons_of_mem _ he))
      (fun e he => houtside e (List.mem_cons_of_mem _ he)) (hturned.continues (hchild.continues _))
    refine ⟨opened', ?_, ?_⟩
    · rw [slotOperations, List.append_assoc]
      exact hturns (.inner hchild hout hrest)
    · simpa [slotOperations] using hstands

end Slots

/-- The operations of a node, when those of its children are matched and satisfy `P` outside of its
scope. -/
theorem operations_completes {P : List ScopeOp → Prop} (hP : Closed P) {t : Tracker} {node : Node}
    {ancestors : List Node} (h : Foreign t node) (henter : P (t.onEnter node ancestors))
    (hmatched : ∀ entry ∈ node.children, ∀ (t : Tracker) (ancestors : List Node),
      Foreign t entry.2 → Matched (t.operations ancestors entry.2))
    (houtside : ∀ entry ∈ node.children, ∀ (t : Tracker) (ancestors : List Node),
      (t.run (t.onSlot node entry.1)).current.owner ≠ some node →
        Foreign (t.run (t.onSlot node entry.1)) entry.2 →
          P ((t.run (t.onSlot node entry.1)).operations ancestors entry.2)) :
    P (t.operations ancestors node) := by
  have hbase := h.onEnter ancestors
  obtain ⟨opened, hturns, hstands⟩ := turns_slotOperations hbase (fun _ he => he) hmatched houtside
    (node :: ancestors) (.refl _ node)
  have hleave : ((t.run (t.onEnter node ancestors)).run ((t.run (t.onEnter node
      ancestors)).slotOperations (node :: ancestors) node node.children)).onLeave node =
      pendingPop opened := by
    -- the node is left with its scope open exactly if its slots have left it so
    rw [onLeave_eq, closing]
    cases opened with
    | false => simp [(hstands.owner_iff hbase).not.mpr, pendingPop]
    | true => simp [hstands.opensScope rfl, (hstands.owner_iff hbase).mpr rfl, pendingPop]
  rw [operations_eq, List.append_assoc, hleave]
  exact hP.append henter (hturns.completes hP)

/-- The operations of a walk are matched. -/
theorem matched_operations {t : Tracker} {node : Node} (ancestors : List Node)
    (h : Foreign t node) : Matched (t.operations ancestors node) := by
  induction node using Node.induction generalizing t ancestors with
  | node node ih =>
    have henter := matched_of_isChange (isChange_onEnter t node ancestors)
    exact operations_completes closed_matched h henter
      (fun entry he t ancestors => ih entry he ancestors)
      (fun entry he t ancestors _ => ih entry he ancestors)

end Tracker

namespace ScopedWalk

open Tracker

@[simp] theorem State.update_scope (s : State) (changes : Tracker → List ScopeOp) :
    (s.update changes).scope = s.scope.map fun t => t.run (changes t) := rfl

@[simp] theorem State.update_ancestors (s : State) (changes : Tracker → List ScopeOp) :
    (s.update changes).ancestors = s.ancestors := rfl

section

variable {α : Type} (observe : Observer α)

theorem visit_eq (s : State) (node : Node) :
    (visit observe s node).1 = (visitSlots observe ((s.update fun t =>
      t.onEnter node s.ancestors).push node) node node.children).1.pop.update fun t =>
        t.onLeave node := by
  obtain ⟨kind, location, attrs, children⟩ := node
  rw [visit]

theorem visitSlots_cons (s : State) (node : Node) (entry : Slot × Node)
    (rest : List (Slot × Node)) :
    (visitSlots observe s node (entry :: rest)).1 =
      (visitSlots observe (visit observe (s.update fun t => t.onSlot node entry.1) entry.2).1 node
        rest).1 := by
  obtain ⟨slot, child⟩ := entry
  rw [visitSlots]

/-- Walking the children of a node performs their operations, when walking each child does. -/
theorem visitSlots_state {node : Node} {children : List (Slot × Node)}
    (h : ∀ entry ∈ children, ∀ s, (visit observe s entry.2).1 =
      ⟨s.scope.map fun t => t.run (t.operations s.ancestors entry.2), s.ancestors⟩) (s : State) :
    (visitSlots observe s node children).1 =
      ⟨s.scope.map fun t => t.run (t.slotOperations s.ancestors node children), s.ancestors⟩ := by
  induction children generalizing s with
  | nil => cases s with | mk scope ancestors => simp [visitSlots, slotOperations]
  | cons entry rest ih =>
    rw [visitSlots_cons, ih fun e he => h e (List.mem_cons_of_mem _ he),
      h entry (List.mem_cons_self ..)]
    simp [slotOperations, Function.comp_def]

/-- A walk performs its operations and comes back to where it started. -/
theorem visit_state (s : State) (node : Node) :
    (visit observe s node).1 =
      ⟨s.scope.map fun t => t.run (t.operations s.ancestors node), s.ancestors⟩ := by
  induction node using Node.induction generalizing s with
  | node node ih =>
    rw [visit_eq, visitSlots_state observe ih]
    simp [State.update, State.push, State.pop, operations_eq, Function.comp_def]

end

end ScopedWalk

/-! ## Walks of the engine -/

/-- A tracker that no operation has changed yet has one open scope, which no node owns. -/
theorem Tracker.new_scopes (inputs injected : List Text) (report : Bool) :
    (Tracker.new inputs injected report).outer = [] ∧
      (Tracker.new inputs injected report).current.owner = none := by
  let P (t : Tracker) : Prop := t.outer = [] ∧ t.current.owner = none
  have hinput {t : Tracker} (h : P t) (name : Text) : P (t.addInput name) :=
    holds_addInput h (fun _ _ => h) name
  exact holds_new (P := fun _ _ t => P t) ⟨rfl, rfl⟩ (fun h _ => h) hinput inputs injected

theorem Tracker.foreign_new (inputs injected : List Text) (report : Bool) (n : Node) :
    Foreign (.new inputs injected report) n := by
  intro m _
  rw [(new_scopes inputs injected report).2]
  simp

namespace Engine

open Tracker

theorem visit_context (e : Engine) (ctx : Context) (root : Node) :
    (e.visit ctx root).1 = { ctx with
      scope := ctx.scope.map fun t => t.run (t.operations ctx.ancestors root) } := by
  simp [Engine.visit, ScopedWalk.visit_state]

/-- A walk leaves the nodes around and the open scopes as they were: its operations open and close
scopes in matched pairs, so that the innermost scope is never closed and only receives names.  From
a new tracker, no scope above the root is left open. -/
theorem walk_restores_scopes (e : Engine) (root : Node) :
    (∀ (ctx : Context) (t : Tracker), ctx.scope = some t →
      (∀ s ∈ t.scopes, ∀ n ∈ root.nodes, s.owner ≠ some n) →
      (e.visit ctx root).1.ancestors = ctx.ancestors ∧
        ∃ t', (e.visit ctx root).1.scope = some t' ∧ t.Continues t' ∧
          t' = t.run (t.operations ctx.ancestors root) ∧
          Matched (t.operations ctx.ancestors root)) ∧
    ∀ (ctx : Context) (t : Tracker) (inputs injected : List Text) (report : Bool),
      t = .new inputs injected report → ctx.scope = some t →
      ∃ t', (e.walk ctx root).1 = some t' ∧ t'.depth = 0 ∧
        t' = t.run (t.operations ctx.ancestors root) ∧
        Matched (t.operations ctx.ancestors root) := by
  constructor
  · intro ctx t hscope howner
    have hmatched : Matched (t.operations ctx.ancestors root) :=
      matched_operations ctx.ancestors (howner t.current (List.mem_cons_self ..))
    rw [visit_context, hscope]
    exact ⟨rfl, _, rfl, hmatched.continues t, rfl, hmatched⟩
  · intro ctx t inputs injected report ht hscope
    have hmatched : Matched (t.operations ctx.ancestors root) :=
      matched_operations ctx.ancestors (ht ▸ foreign_new inputs injected report root)
    have hdepth : (t.run (t.operations ctx.ancestors root)).depth = 0 := by
      rw [depth, (hmatched.continues t).outer, ht, (new_scopes inputs injected report).1]
      rfl
    refine ⟨_, ?_, hdepth, rfl, hmatched⟩
    change (e.visit ctx root).1.scope = _
    rw [visit_context, hscope]
    rfl

/-- A rule that always breaks off, and a loop with an alternative inside a scope of another node. -/
theorem walk_restores_scopes_loop :
    let e : Engine := ⟨⟨[(.any, ⟨[], [], none, fun _ _ => .error []⟩)], true⟩, []⟩
    let root : Node := ⟨.forTag, .start, [], [(.seq, .leaf .name .start),
      (.valueTarget, .leaf .assignName .start), (.body, .leaf .body .start),
      (.elseBody, .leaf .body .start)]⟩
    let t : Tracker := (Tracker.new [] [] true).push false (some (.leaf .withTag .start))
    (∀ s ∈ t.scopes, ∀ n ∈ root.nodes, s.owner ≠ some n) ∧
      ∃ t', (e.visit ⟨[], [], some t, [], []⟩ root).1.scope = some t' ∧ t.Continues t' := by
  intro e root t
  have howner : ∀ s ∈ t.scopes, ∀ n ∈ root.nodes, s.owner ≠ some n := by decide
  obtain ⟨-, t', ht', hcontinues, -⟩ :=
    (walk_restores_scopes e root).1 ⟨[], [], some t, [], []⟩ t rfl howner
  exact ⟨howner, t', ht', hcontinues⟩

end Engine

end TwigLint
