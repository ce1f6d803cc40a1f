import TwigLint.Proofs.Engine.Failure
import TwigLint.Proofs.Rules.Surroundings
import TwigLint.Proofs.Scope.Expression

/-! # What a walk finds

The diagnostics of walking a tree, node by node.  What is found in an expression depends on the
layout of the scopes, on the node right around it and on the default filters and `??` further
around, and on nothing else.
-/

namespace TwigLint

open Rules Tracker ScopedWalk
open TwigLint.Parser (Built Category)

/-- The context with the given scopes, inside the given nodes. -/
def Context.within (ctx : Context) (t : Tracker) (around : List Node) : Context :=
  { ctx with scope := some t, ancestors := around }

namespace Engine

variable (e : Engine) (ctx : Context)

/-- What the rules find at a node when the scopes are up to date. -/
def finds (t : Tracker) (around : List Node) (node : Node) : List Diagnostic :=
  (e.rulesAt node.kind).flatMap fun r => r.contribution (ctx.within t around) node

/-- The diagnostics of walking the children of a node from some slot on. -/
def slotOutput (t : Tracker) (around : List Node) (node : Node) :
    List (Slot × Node) → List Diagnostic
  | [] => []
  | (slot, child) :: rest =>
    let turned := t.run (t.onSlot node slot)
    e.output (ctx.within turned around) child ++
      slotOutput (turned.run (turned.operations around child)) around node rest

theorem slotOutput_eq (t : Tracker) (around : List Node) (node : Node)
    (children : List (Slot × Node)) :
    e.slotOutput ctx t around node children =
      (slotMoments ⟨some t, around⟩ node children).flatMap fun m =>
        (e.rulesAt m.2.kind).flatMap fun r => r.contribution (ctx.atMoment m) m.2 := by
  induction children generalizing t with
  | nil => rfl
  | cons entry rest ih =>
    rw [slotOutput, ih, slotMoments, List.flatMap_append, visit_state, output_eq]
    rfl

/-- What is found in a tree is what is found at its root, and then below it. -/
theorem output_node (t : Tracker) (around : List Node) (node : Node) :
    e.output (ctx.within t around) node =
      e.finds ctx (t.run (t.onEnter node around)) around node ++
        e.slotOutput ctx (t.run (t.onEnter node around)) (node :: around) node node.children := by
  rw [output_eq, slotOutput_eq, Context.within, moments_eq, List.flatMap_cons]
  rfl

variable {e ctx}

theorem contribution_congr {r : Rule} (hr : Steady r) {ctx' : Context} {node : Node}
    (h : Context.Resembles node { ctx with rule := r.name } { ctx' with rule := r.name }) :
    r.contribution ctx node = r.contribution ctx' node := by
  have hid : ctx.id = ctx'.id := h.id
  rw [Rule.contribution, Rule.contribution, hr h, hid]

theorem slotOutput_congr {t t' : Tracker} (h : SameLayout t t') {around around' : List Node}
    {n : Node} {children : List (Slot × Node)}
    (hoperations : ∀ entry ∈ children, ∀ t : Tracker,
      t.operations around entry.2 = t.operations around' entry.2)
    (houtput : ∀ entry ∈ children, ∀ {t t' : Tracker}, SameLayout t t' →
      e.output (ctx.within t around) entry.2 = e.output (ctx.within t' around') entry.2) :
    e.slotOutput ctx t around n children = e.slotOutput ctx t' around' n children := by
  induction children generalizing t t' with
  | nil => rfl
  | cons entry rest ih =>
    have hentry := List.mem_cons_self (a := entry) (l := rest)
    have hturned := h.run (t.onSlot n entry.1)
    have hrest := ih (hturned.run ((t.run (t.onSlot n entry.1)).operations around entry.2))
      (fun e he => hoperations e (List.mem_cons_of_mem _ he))
      fun e he => houtput e (List.mem_cons_of_mem _ he)
    rw [slotOutput, slotOutput, ← h.onSlot, houtput entry hentry hturned,
      ← hoperations entry hentry, ← hturned.operations, ← hrest]

variable {Q : Token → Prop} {c : Category} {n : Node} {around around' : List Node}

theorem output_of_finds (hn : Built Q c n) (hfits : c.fits around) (hfits' : c.fits around')
    {t t' : Tracker} (h : SameLayout t t')
    (hfinds : ∀ {t t' : Tracker}, SameLayout t t' →
      e.finds ctx t around n = e.finds ctx t' around' n)
    (hchildren : ∀ entry ∈ n.children, ∀ {t t' : Tracker}, SameLayout t t' →
      e.output (ctx.within t (n :: around)) entry.2 =
        e.output (ctx.within t' (n :: around')) entry.2) :
    e.output (ctx.within t around) n = e.output (ctx.within t' around') n := by
  have hentered := h.run (t.onEnter n around)
  have hslots := slotOutput_congr (n := n) hentered (fun entry hentry t =>
    (hn.child hentry).operations_fits (hn.fits_child hfits entry.1)
      (hn.fits_child hfits' entry.1) t) hchildren
  rw [output_node, output_node, ← h.onEnter n around', ← hn.onEnter_fits hfits hfits',
    hfinds hentered, hslots]

section Steady

variable (hsteady : ∀ entry ∈ e.registry.entries, Steady entry.2)
include hsteady

theorem finds_congr {t t' : Tracker} {around around' : List Node} {node : Node}
    (h : ∀ name, Context.Resembles node { ctx.within t around with rule := name }
      { ctx.within t' around' with rule := name }) :
    e.finds ctx t around node = e.finds ctx t' around' node := by
  unfold finds
  refine List.flatMap_congr fun r hr => ?_
  obtain ⟨entry, hentry, rfl⟩ := mem_rulesAt hr
  exact contribution_congr (hsteady entry hentry) (h _)

/-- The same is found in a part of an expression when the same is right around it, and further
around as far as it matters. -/
theorem output_of_parent (hn : Built Q c n) (hfits : c.fits around) (hfits' : c.fits around')
    {t t' : Tracker} (h : SameLayout t t') (hparent : around.head? = around'.head?)
    (houtlook : SameOutlook around around') :
    e.output (ctx.within t around) n = e.output (ctx.within t' around') n := by
  induction n using Node.induction generalizing c around around' t t' with
  | node n ih =>
    refine output_of_finds hn hfits hfits' h (fun h => finds_congr hsteady fun name => ?_)
      fun entry hentry _ _ h => ?_
    · exact resembles_of_parent { ctx with rule := name } h houtlook hparent
    · exact ih entry hentry (hn.child hentry) (hn.fits_child hfits entry.1)
        (hn.fits_child hfits' entry.1) h rfl (houtlook.cons n)

end Steady

end Engine

end TwigLint
