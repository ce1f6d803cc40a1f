import TwigLint.Proofs.Grammar.Tidy
import TwigLint.Proofs.Scope.Layout

/-! # Walking an expression

An expression binds the parameters of arrow functions and nothing else, wherever it stands.  Walking
it performs operations that do not depend on the nodes around and that create no local names, and
walking it once more changes nothing that can be seen.
-/

namespace TwigLint

open Tracker

/-! ## Operations that create no local names -/

/-- The operation creates no local name. -/
def ScopeOp.isSilent : ScopeOp → Bool
  | .declare _ _ | .assign _ _ => false
  | _ => true

namespace Tracker

theorem createdAlong_of_silent {ops : List ScopeOp} (h : ∀ op ∈ ops, op.isSilent = true)
    (t : Tracker) : t.createdAlong ops = [] := by
  induction ops generalizing t with
  | nil => rfl
  | cons op ops ih =>
    obtain ⟨hop, hops⟩ := List.forall_mem_cons.mp h
    have hnone : t.createdBy op = [] := by
      cases op with
      | declare | assign => cases hop
      | _ => rfl
    rw [createdAlong, hnone, ih hops, List.append_nil]

theorem silent_opening (t : Tracker) (node : Node) (isolated : Bool) {prepare : List ScopeOp}
    (h : ∀ op ∈ prepare, op.isSilent = true) :
    ∀ op ∈ t.opening node isolated prepare, op.isSilent = true := by
  unfold opening
  split
  · simp
  · exact List.forall_mem_cons.mpr ⟨rfl, h⟩

theorem silent_declareKeys (context : Option Node) :
    ∀ op ∈ declareKeys context, op.isSilent = true := by
  unfold declareKeys
  split
  · split
    · intro op hop
      obtain ⟨key, -, rfl⟩ := List.mem_map.mp hop
      rfl
    · simp
  · simp

theorem silent_onSlot (t : Tracker) (node : Node) (slot : Slot) :
    ∀ op ∈ t.onSlot node slot, op.isSilent = true := by
  have hinject (name : Text) : ∀ op ∈ [ScopeOp.inject name], op.isSilent = true := by
    simp [ScopeOp.isSilent]
  unfold onSlot
  split
  · split
    · exact silent_opening t node _ (hinject _)
    · exact silent_opening t node _ (hinject _)
    · exact silent_opening t node _ (hinject _)
    · unfold closing
      split <;> simp [ScopeOp.isSilent]
    · simp
  · exact silent_opening t node _ (by simp)
  · exact silent_opening t node _ (hinject _)
  · split
    · exact silent_opening t node _ (silent_declareKeys _)
    · simp
  · split
    · exact silent_opening t node _ (silent_declareKeys _)
    · simp
  · simp

theorem silent_onLeave (t : Tracker) (node : Node) :
    ∀ op ∈ t.onLeave node, op.isSilent = true := by
  rw [onLeave_eq]
  unfold closing
  split
  · split <;> simp [ScopeOp.isSilent]
  · simp

end Tracker

/-! ## Positions in an expression -/

namespace Parser

/-- What stands around a part of an expression: parameters stand below their arrow function. -/
def Category.fits : Category → List Node → Prop
  | .expression, _ => True
  | .parameters, around => ∃ arrow rest, around = arrow :: rest ∧ arrow.kind = .arrow
  | .parameter, around => ∃ targets arrow rest, around = targets :: arrow :: rest ∧
      targets.kind = .targets ∧ arrow.kind = .arrow
  | .target, _ | .targets, _ | .statement, _ => False

variable {Q : Token → Prop} {c : Category} {n : Node} {around around' : List Node}

theorem Built.fits_child (h : Built Q c n) (hfits : c.fits around) (slot : Slot) :
    (c.below n.kind slot).fits (n :: around) := by
  cases c with
  | target | targets | statement => cases hfits
  | parameter => trivial
  | parameters =>
    obtain ⟨arrow, rest, rfl, harrow⟩ := hfits
    exact ⟨n, arrow, rest, rfl, eq_of_beq h.kind, harrow⟩
  | expression =>
    simp only [Category.below]
    split
    · split
      · exact ⟨n, around, rfl, ‹_›⟩
      · trivial
    · trivial

/-- A name that is bound in an expression is a parameter. -/
theorem Built.bindTarget_fits (h : Built Q c n) (hfits : c.fits around)
    (hkind : n.kind = .assignName) : bindTarget n around = .declareParam n.name n.line := by
  have hadmits := h.kind
  rw [hkind] at hadmits
  cases c with
  | target | targets | statement => cases hfits
  | parameter =>
    obtain ⟨targets, arrow, rest, rfl, htargets, harrow⟩ := hfits
    simp only [bindTarget, List.head?_cons, Option.map_some, List.drop_succ_cons, List.drop_zero,
      htargets, harrow]
  | _ => cases hadmits

theorem Built.onEnter_fits (h : Built Q c n) (hfits : c.fits around) (hfits' : c.fits around')
    (t : Tracker) : t.onEnter n around = t.onEnter n around' := by
  unfold Tracker.onEnter
  split
  · rfl
  · rfl
  · rw [h.bindTarget_fits hfits ‹_›, h.bindTarget_fits hfits' ‹_›]
  · rfl

theorem Built.silent_onEnter (h : Built Q c n) (hfits : c.fits around) (t : Tracker) :
    ∀ op ∈ t.onEnter n around, op.isSilent = true := by
  unfold Tracker.onEnter
  split
  · simp [ScopeOp.isSilent]
  · split <;> simp [ScopeOp.isSilent]
  · rw [h.bindTarget_fits hfits ‹_›]
    simp [ScopeOp.isSilent]
  · simp

/-! ## Walks -/

/-- Walking an expression creates no local names. -/
theorem Built.silent_operations (h : Built Q c n) (hfits : c.fits around) (t : Tracker) :
    ∀ op ∈ t.operations around n, op.isSilent = true := by
  induction n using Node.induction generalizing c around t with
  | node n ih =>
    intro op hop
    rw [operations_eq] at hop
    rcases List.mem_append.mp hop with hop | hop
    · rcases List.mem_append.mp hop with hop | hop
      · exact h.silent_onEnter hfits t op hop
      · obtain ⟨entry, hentry, u, hop | hop⟩ := mem_slotOperations hop
        · exact silent_onSlot u n entry.1 op hop
        · exact ih entry hentry (h.child hentry) (h.fits_child hfits entry.1) u op hop
    · exact silent_onLeave _ n op hop

/-- Walking an expression performs the same operations wherever it stands. -/
theorem Built.operations_fits (h : Built Q c n) (hfits : c.fits around) (hfits' : c.fits around')
    (t : Tracker) : t.operations around n = t.operations around' n := by
  induction n using Node.induction generalizing c around around' t with
  | node n ih =>
    have hslots (t : Tracker) : t.slotOperations (n :: around) n n.children =
        t.slotOperations (n :: around') n n.children :=
      slotOperations_congr (fun entry hentry => ih entry hentry (h.child hentry)
        (h.fits_child hfits entry.1) (h.fits_child hfits' entry.1)) t
    rw [operations_eq, operations_eq, h.onEnter_fits hfits hfits', hslots]

/-- Walking an expression leaves the layout as it was. -/
theorem Built.sameLayout_run (h : Built Q .expression n) {t : Tracker} (ht : t.Reachable)
    (hforeign : Foreign t n) (around : List Node) :
    SameLayout t (t.run (t.operations around n)) :=
  ⟨ht, ht.run _, ((h.confined.operations hforeign around).layout ht.named).symm⟩

/-- Walking an expression once more, wherever it stands then, changes nothing that can be seen. -/
theorem Built.alike_run (h : Built Q .expression n) {t : Tracker} (ht : t.Reachable)
    (hforeign : Foreign t n) (around around' : List Node) :
    let walked := t.run (t.operations around n)
    Alike walked (walked.run (walked.operations around' n)) := by
  intro walked
  have hsame : walked.operations around' n = t.operations around n := by
    rw [← (h.sameLayout_run ht hforeign around).operations around' n]
    exact h.operations_fits trivial trivial t
  rw [hsame]
  exact (h.confined.operations hforeign around).repeated ht
    (createdAlong_of_silent (h.silent_operations trivial t) t)

end Parser

end TwigLint
