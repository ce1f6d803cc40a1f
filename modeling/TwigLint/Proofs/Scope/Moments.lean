import TwigLint.Proofs.Scope.Resolution

/-! # The way to a moment

A walk comes to each of its moments by the first of its operations.  Every isolated scope that is
open there belongs to a node around: to a macro, or to an `embed` or `with` tag that says `only`.
-/

namespace TwigLint

namespace ScopedWalk

open Tracker

/-- The operations begin with those by which a walk comes to the moment, and go on by entering the
node. -/
def Reaches (t : Tracker) (ops : List ScopeOp) (m : State × Node) : Prop :=
  ∃ before behind, m.1.scope = some (t.run before) ∧
    ops = before ++ (t.run before).onEnter m.2 m.1.ancestors ++ behind

section

variable {t : Tracker} {ops : List ScopeOp} {m : State × Node}

theorem Reaches.append (h : Reaches t ops m) (rest : List ScopeOp) : Reaches t (ops ++ rest) m := by
  obtain ⟨before, behind, hscope, rfl⟩ := h
  exact ⟨before, behind ++ rest, hscope, List.append_assoc ..⟩

theorem Reaches.after {first : List ScopeOp} (h : Reaches (t.run first) ops m) :
    Reaches t (first ++ ops) m := by
  obtain ⟨before, behind, hscope, rfl⟩ := h
  refine ⟨first ++ before, behind, by rw [hscope, run_append], ?_⟩
  rw [run_append]
  simp only [List.append_assoc]

end

theorem reaches_slotMoments {node : Node} {children : List (Slot × Node)} {m : State × Node}
    (h : ∀ entry ∈ children, ∀ {s : State} {t : Tracker}, s.scope = some t →
      m ∈ moments s entry.2 → Reaches t (t.operations s.ancestors entry.2) m)
    {t : Tracker} {ancestors : List Node} (hm : m ∈ slotMoments ⟨some t, ancestors⟩ node children) :
    Reaches t (t.slotOperations ancestors node children) m := by
  induction children generalizing t with
  | nil => simp [slotMoments] at hm
  | cons entry rest ih =>
    rw [slotMoments, visit_state] at hm
    rw [slotOperations, List.append_assoc]
    rcases List.mem_append.mp hm with hm | hm
    · exact ((h entry (List.mem_cons_self ..) rfl hm).append _).after
    · exact (ih (fun e he => h e (List.mem_cons_of_mem _ he)) hm).after.after

/-- A walk has come to a moment by its first operations, and goes on by entering the node. -/
theorem operations_of_mem_moments {root : Node} {s : State} {t : Tracker}
    (hs : s.scope = some t) {m : State × Node} (hm : m ∈ moments s root) :
    ∃ before behind, m.1.scope = some (t.run before) ∧ t.operations s.ancestors root =
      before ++ (t.run before).onEnter m.2 m.1.ancestors ++ behind := by
  change Reaches t (t.operations s.ancestors root) m
  induction root using Node.induction generalizing s t with
  | node root ih =>
    obtain ⟨scope, ancestors⟩ := s
    obtain rfl : scope = some t := hs
    rw [moments_eq] at hm
    rw [operations_eq, List.append_assoc]
    rcases List.mem_cons.mp hm with rfl | hm
    · exact ⟨[], _, rfl, rfl⟩
    · exact ((reaches_slotMoments ih hm).append _).after

end ScopedWalk

/-! ## Isolated scopes -/

namespace Tracker

/-- Every isolated scope that is open belongs to an isolating node among the given ones. -/
def Enclosed (t : Tracker) (around : List Node) : Prop :=
  ∀ s ∈ t.scopes, s.isolated = true → ∃ p ∈ around, s.owner = some p ∧ isolates p = true

theorem Enclosed.continues {t t' : Tracker} {around : List Node} (h : Enclosed t around)
    (ht : Continues t t') : Enclosed t' around := by
  intro s hs hisolated
  rcases List.mem_cons.mp hs with rfl | hs
  · rw [ht.isolated] at hisolated
    rw [ht.owner]
    exact h t.current (List.mem_cons_self ..) hisolated
  · exact h s (List.mem_cons_of_mem _ (ht.outer ▸ hs)) hisolated

theorem Enclosed.cons {t : Tracker} {around : List Node} (h : Enclosed t around) (n : Node) :
    Enclosed t (n :: around) := by
  intro s hs hisolated
  obtain ⟨p, hp, howner⟩ := h s hs hisolated
  exact ⟨p, List.mem_cons_of_mem _ hp, howner⟩

theorem Enclosed.push {t : Tracker} {around : List Node} (h : Enclosed t around) {isolated : Bool}
    {n : Node} (hn : n ∈ around) (hisolated : isolated = true → isolates n = true) :
    Enclosed (t.push isolated (some n)) around := by
  intro s hs hs'
  rcases List.mem_cons.mp hs with rfl | hs
  · exact ⟨n, hn, rfl, hisolated hs'⟩
  · exact h s hs hs'

theorem Enclosed.pop {t : Tracker} {around : List Node} (h : Enclosed t around) :
    Enclosed t.pop around := by
  unfold Tracker.pop
  split
  · exact h
  · rename_i s rest houter
    intro s' hs'
    exact h s' (List.mem_cons_of_mem _ (houter ▸ hs'))

theorem Enclosed.onSlot {t : Tracker} {around : List Node} (h : Enclosed t around) {n : Node}
    (hn : n ∈ around) (slot : Slot) : Enclosed (t.run (t.onSlot n slot)) around := by
  rcases onSlot_cases t n slot with heq | ⟨-, heq | ⟨isolated, prepare, hisolated, hprepare, heq⟩⟩
  · rw [heq]
    exact h
  · rw [heq, closing]
    split
    · exact h.pop
    · exact h
  · rw [heq, opening]
    split
    · exact h
    · exact (h.push hn hisolated).continues ((matched_of_isChange hprepare).continues _)

end Tracker

/-- At every moment of a walk, the isolated scopes that are open belong to nodes around. -/
theorem ScopedWalk.enclosed_of_mem_moments {root : Node} {s : State} {t : Tracker}
    (hs : s.scope = some t) (ht : t.Foreign root) (h : t.Enclosed s.ancestors) :
    ∀ m ∈ moments s root, ∃ u, m.1.scope = some u ∧ u.Enclosed m.1.ancestors := by
  intro m hm
  obtain ⟨u, hu, -, henclosed⟩ := holds_at_moments (P := Tracker.Enclosed)
    (fun hops h => h.continues (hops.continues _))
    (fun _ slot h => h.onSlot (List.mem_cons_self ..) slot) (fun n h => h.cons n) hs ht h m hm
  exact ⟨u, hu, henclosed⟩

end TwigLint
