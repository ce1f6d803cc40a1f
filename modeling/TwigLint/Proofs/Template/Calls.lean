import TwigLint.Proofs.Template.Tree

/-! # Calls of a traversal

A traversal calls its visitor before and behind the children of every node.  The calls go by the
bracketed depth-first order in which nothing stands between the two calls for a node whose children
the visitor skips.  They come to its end, or to the first call that fails.
-/

namespace TwigLint

variable {σ ε : Type}

namespace Visitor

/-- A call of a visitor. -/
inductive Call where
  | enter (n : Node)
  | leave (n : Node)
  deriving DecidableEq

/-- A call and what the visitor answers. -/
inductive Step (ε : Type) where
  | entered (n : Node) (answer : Visit ε)
  | left (n : Node) (failure? : Option ε)

namespace Step

def call : Step ε → Call
  | .entered n _ => .enter n
  | .left n _ => .leave n

/-- The failure that is answered.  The wish to skip the children of a node is none. -/
def failure? : Step ε → Option ε
  | .entered _ (.fail e) => some e
  | .entered _ _ => none
  | .left _ e? => e?

/-- The children of the node are to be skipped. -/
def skips : Step ε → Bool
  | .entered _ .skip => true
  | _ => false

end Step

/-- A visitor that also writes down its calls and answers. -/
def recording (v : Visitor σ ε) : Visitor (σ × List (Step ε)) ε where
  enter r n :=
    let answer := v.enter r.1 n
    ((answer.1, r.2 ++ [.entered n answer.2]), answer.2)
  leave r n :=
    let answer := v.leave r.1 n
    ((answer.1, r.2 ++ [.left n answer.2]), answer.2)

/-! ## Nested calls -/

/-- Every node that is entered is left, after everything that is entered in between. -/
inductive Nested : List Call → Prop where
  | nil : Nested []
  | cons (n : Node) {inner rest : List Call} (hinner : Nested inner) (hrest : Nested rest) :
      Nested (.enter n :: (inner ++ .leave n :: rest))

namespace Nested

theorem append {calls more : List Call} (h : Nested calls) (hmore : Nested more) :
    Nested (calls ++ more) := by
  induction h with
  | nil => exact hmore
  | cons n hinner _ _ ih => simpa using cons n hinner ih

theorem around (n : Node) {inner : List Call} (h : Nested inner) :
    Nested (.enter n :: (inner ++ [.leave n])) := cons n h nil

/-- A node is left as often as it is entered. -/
theorem count_leave {calls : List Call} (h : Nested calls) (n : Node) :
    calls.count (.leave n) = calls.count (.enter n) := by
  induction h with
  | nil => rfl
  | cons m _ _ ihinner ihrest =>
    by_cases hm : m = n
    · subst hm
      simp only [List.count_cons, List.count_append, ihinner, ihrest]
      simp
      omega
    · simp [List.count_append, ihinner, ihrest, hm]

end Nested

end Visitor

namespace Node

open Visitor (Call Step Nested)

/-! ## The order of calls -/

mutual
/-- The calls for a tree in depth-first order, numbered from `i` on.  Where `cut` has the number of
the call that enters a node, the node is left at once. -/
def brackets (cut : Nat → Bool) (i : Nat) : Node → List Call
  | ⟨kind, location, attrs, children⟩ =>
    let node : Node := ⟨kind, location, attrs, children⟩
    .enter node :: ((if cut i then [] else bracketsAll cut (i + 1) children) ++ [.leave node])

/-- The calls for the children of a node, one child after another. -/
def bracketsAll (cut : Nat → Bool) (i : Nat) : List (Slot × Node) → List Call
  | [] => []
  | (_, child) :: rest =>
    let calls := brackets cut i child
    calls ++ bracketsAll cut (i + calls.length) rest
end

theorem brackets_eq (cut : Nat → Bool) (i : Nat) (n : Node) :
    n.brackets cut i =
      .enter n :: ((if cut i then [] else bracketsAll cut (i + 1) n.children) ++ [.leave n]) := by
  obtain ⟨kind, location, attrs, children⟩ := n
  rw [brackets]

theorem bracketsAll_cons (cut : Nat → Bool) (i : Nat) (entry : Slot × Node)
    (rest : List (Slot × Node)) :
    bracketsAll cut i (entry :: rest) =
      entry.2.brackets cut i ++ bracketsAll cut (i + (entry.2.brackets cut i).length) rest := by
  rw [bracketsAll]

theorem nested_bracketsAll {cut : Nat → Bool} {children : List (Slot × Node)}
    (h : ∀ entry ∈ children, ∀ i, Nested (entry.2.brackets cut i)) (i : Nat) :
    Nested (bracketsAll cut i children) := by
  induction children generalizing i with
  | nil => exact .nil
  | cons entry rest ih =>
    obtain ⟨hentry, hrest⟩ := List.forall_mem_cons.mp h
    rw [bracketsAll_cons]
    exact (hentry i).append (ih hrest _)

theorem nested_brackets (cut : Nat → Bool) (i : Nat) (n : Node) : Nested (n.brackets cut i) := by
  induction n using Node.induction generalizing i with
  | node n ih =>
    rw [brackets_eq]
    apply Nested.around
    split
    · exact .nil
    · exact nested_bracketsAll ih (i + 1)

/-! ## Steps that go by an order -/

/-- The steps go by an order of calls, to its end or to the first failure, which is the outcome. -/
structure GoesBy (order : List Call) (steps : List (Step ε)) (outcome : Option ε) : Prop where
  calls : steps.map Step.call <+: order
  complete : outcome = none → steps.map Step.call = order
  failure : steps.findSome? Step.failure? = outcome
  atEnd : ∀ step ∈ steps.dropLast, step.failure? = none

namespace GoesBy

variable {order more : List Call} {steps others : List (Step ε)} {outcome : Option ε}

theorem nil : GoesBy [] ([] : List (Step ε)) none := ⟨List.prefix_rfl, fun _ => rfl, rfl, by simp⟩

theorem single (step : Step ε) : GoesBy [step.call] [step] step.failure? :=
  ⟨List.prefix_rfl, fun _ => rfl, by simp, by simp⟩

theorem all_none (h : GoesBy order steps none) : ∀ step ∈ steps, step.failure? = none :=
  List.findSome?_eq_none_iff.mp h.failure

/-- Behind steps without a failure others may follow. -/
theorem append (h : GoesBy order steps none) (hothers : GoesBy more others outcome) :
    GoesBy (order ++ more) (steps ++ others) outcome where
  calls := by
    rw [List.map_append, h.complete rfl]
    exact (List.prefix_append_right_inj order).mpr hothers.calls
  complete hnone := by rw [List.map_append, h.complete rfl, hothers.complete hnone]
  failure := by rw [List.findSome?_append, h.failure, Option.none_or, hothers.failure]
  atEnd step hstep := by
    cases others with
    | nil =>
      rw [List.append_nil] at hstep
      exact h.all_none step (List.dropLast_subset _ hstep)
    | cons other others =>
      rw [List.dropLast_append_of_ne_nil (List.cons_ne_nil other others), List.mem_append] at hstep
      exact hstep.elim (h.all_none step) (hothers.atEnd step)

/-- Behind a failure there is nothing, however the order goes on. -/
theorem stop {e : ε} (h : GoesBy order steps (some e)) (more : List Call) :
    GoesBy (order ++ more) steps (some e) where
  calls := h.calls.trans (List.prefix_append order more)
  complete hnone := nomatch hnone
  failure := h.failure
  atEnd := h.atEnd

end GoesBy

/-- The numbers, from `i` on, of the steps that skip children are those that `cut` has. -/
def CutBy (cut : Nat → Bool) (i : Nat) (steps : List (Step ε)) : Prop :=
  ∀ (k : Nat) (step : Step ε), steps[k]? = some step → cut (i + k) = step.skips

namespace CutBy

variable {cut : Nat → Bool} {i : Nat} {steps others : List (Step ε)}

theorem head {step : Step ε} (h : CutBy cut i (step :: steps)) : cut i = step.skips :=
  h 0 step rfl

theorem left (h : CutBy cut i (steps ++ others)) : CutBy cut i steps := fun k step hk => by
  apply h k step
  obtain ⟨hlt, -⟩ := List.getElem?_eq_some_iff.mp hk
  rw [List.getElem?_append_left hlt, hk]

theorem right (h : CutBy cut i (steps ++ others)) : CutBy cut (i + steps.length) others :=
  fun k step hk => by
    rw [Nat.add_assoc]
    apply h (steps.length + k) step
    rw [List.getElem?_append_right (Nat.le_add_right ..), Nat.add_sub_cancel_left, hk]

theorem tail {step : Step ε} (h : CutBy cut i (step :: steps)) : CutBy cut (i + 1) steps := by
  have hparts : CutBy cut i ([step] ++ steps) := h
  exact hparts.right

end CutBy

/-! ## The steps of a traversal -/

/-- The calls of a visitor in a traversal, with its answers. -/
def trace (v : Visitor σ ε) (s : σ) (n : Node) : List (Step ε) := (n.walk v.recording (s, [])).1.2

/-- A traversal with a visitor that writes down its calls ends as without that, and the `steps` that
are written down go by the brackets of the tree. -/
def Recorded (v : Visitor σ ε) (s : σ) (n : Node) (steps : List (Step ε)) : Prop :=
  (∀ seen, n.walk v.recording (s, seen) = (((n.walk v s).1, seen ++ steps), (n.walk v s).2)) ∧
    ∀ cut i, CutBy cut i steps → GoesBy (n.brackets cut i) steps (n.walk v s).2

/-- The same of the children of a node. -/
def AllRecorded (v : Visitor σ ε) (s : σ) (children : List (Slot × Node)) (steps : List (Step ε)) :
    Prop :=
  (∀ seen, walkAll v.recording (s, seen) children =
      (((walkAll v s children).1, seen ++ steps), (walkAll v s children).2)) ∧
    ∀ cut i, CutBy cut i steps → GoesBy (bracketsAll cut i children) steps (walkAll v s children).2

variable {v : Visitor σ ε} {s s' s'' : σ} {n : Node}

theorem walk_of_fail {e : ε} (h : v.enter s n = (s', .fail e)) : n.walk v s = (s', some e) := by
  obtain ⟨kind, location, attrs, children⟩ := n
  simp only [walk, h]

theorem walk_of_skip (h : v.enter s n = (s', .skip)) : n.walk v s = v.leave s' n := by
  obtain ⟨kind, location, attrs, children⟩ := n
  simp only [walk, h]

theorem walk_of_stop {e : ε} (h : v.enter s n = (s', .descend))
    (hall : walkAll v s' n.children = (s'', some e)) : n.walk v s = (s'', some e) := by
  obtain ⟨kind, location, attrs, children⟩ := n
  simp only [walk, h, hall]

theorem walk_of_descend (h : v.enter s n = (s', .descend))
    (hall : walkAll v s' n.children = (s'', none)) : n.walk v s = v.leave s'' n := by
  obtain ⟨kind, location, attrs, children⟩ := n
  simp only [walk, h, hall]

theorem walkAll_of_stop {entry : Slot × Node} {rest : List (Slot × Node)} {e : ε}
    (h : entry.2.walk v s = (s', some e)) : walkAll v s (entry :: rest) = (s', some e) := by
  rw [walkAll, h]

theorem walkAll_of_go {entry : Slot × Node} {rest : List (Slot × Node)}
    (h : entry.2.walk v s = (s', none)) : walkAll v s (entry :: rest) = walkAll v s' rest := by
  rw [walkAll, h]

theorem recording_enter (v : Visitor σ ε) (s : σ) (seen : List (Step ε)) (n : Node) :
    v.recording.enter (s, seen) n =
      (((v.enter s n).1, seen ++ [.entered n (v.enter s n).2]), (v.enter s n).2) := rfl

theorem recording_leave (v : Visitor σ ε) (s : σ) (seen : List (Step ε)) (n : Node) :
    v.recording.leave (s, seen) n =
      (((v.leave s n).1, seen ++ [.left n (v.leave s n).2]), (v.leave s n).2) := rfl

/-- What is recorded of the children of a node is recorded one child after another. -/
theorem allRecorded {children : List (Slot × Node)}
    (ih : ∀ entry ∈ children, ∀ s, ∃ steps, Recorded v s entry.2 steps) (s : σ) :
    ∃ steps, AllRecorded v s children steps := by
  induction children generalizing s with
  | nil =>
    exact ⟨[], fun seen => by simp [walkAll], fun cut i _ => by
      simpa [walkAll, bracketsAll] using .nil⟩
  | cons entry rest ihrest =>
    obtain ⟨steps, hrun, hby⟩ := ih entry (List.mem_cons_self ..) s
    rcases hwalk : entry.2.walk v s with ⟨s', _ | e⟩
    · obtain ⟨more, hmore, hbymore⟩ := ihrest (fun e he => ih e (List.mem_cons_of_mem _ he)) s'
      simp only [hwalk] at hrun hby
      refine ⟨steps ++ more, fun seen => ?_, fun cut i hcut => ?_⟩
      · rw [walkAll_of_go hwalk, walkAll_of_go (hrun seen), hmore, List.append_assoc]
      · have hchild := hby cut i hcut.left
        have hlength : (entry.2.brackets cut i).length = steps.length := by
          rw [← hchild.complete rfl, List.length_map]
        rw [bracketsAll_cons, walkAll_of_go hwalk, hlength]
        exact hchild.append (hbymore cut _ hcut.right)
    · simp only [hwalk] at hrun hby
      refine ⟨steps, fun seen => ?_, fun cut i hcut => ?_⟩
      · rw [walkAll_of_stop hwalk, walkAll_of_stop (hrun seen)]
      · rw [bracketsAll_cons, walkAll_of_stop hwalk]
        exact (hby cut i hcut).stop _

/-- Of every node it is recorded that it is entered, then what is recorded of its children, and then
that it is left; a failure ends this. -/
theorem recorded (v : Visitor σ ε) (s : σ) (n : Node) : ∃ steps, Recorded v s n steps := by
  induction n using Node.induction generalizing s with
  | node n ih =>
    rcases henter : v.enter s n with ⟨s', answer⟩
    have hrecord (seen : List (Step ε)) : v.recording.enter (s, seen) n =
        ((s', seen ++ [.entered n answer]), answer) := by rw [recording_enter, henter]
    have hentered := GoesBy.single (.entered n answer)
    cases answer with
    | fail e =>
      refine ⟨[.entered n (.fail e)], fun seen => ?_, fun cut i _ => ?_⟩
      · rw [walk_of_fail henter, walk_of_fail (hrecord seen)]
      · rw [brackets_eq, walk_of_fail henter]
        exact hentered.stop _
    | skip =>
      refine ⟨[.entered n .skip, .left n (v.leave s' n).2], fun seen => ?_, fun cut i hcut => ?_⟩
      · rw [walk_of_skip henter, walk_of_skip (hrecord seen), recording_leave, List.append_assoc]
        rfl
      · rw [brackets_eq, hcut.head, walk_of_skip henter]
        exact hentered.append (GoesBy.single (.left n _))
    | descend =>
      obtain ⟨inner, hrun, hby⟩ := allRecorded ih s'
      rcases hall : walkAll v s' n.children with ⟨s'', _ | e⟩
      · simp only [hall] at hrun hby
        refine ⟨.entered n .descend :: (inner ++ [.left n (v.leave s'' n).2]), fun seen => ?_,
          fun cut i hcut => ?_⟩
        · rw [walk_of_descend henter hall, walk_of_descend (hrecord seen) (hrun _), recording_leave]
          simp
        · rw [brackets_eq, hcut.head, walk_of_descend henter hall]
          have hinner := hby cut (i + 1) hcut.tail.left
          exact hentered.append (hinner.append (GoesBy.single (.left n _)))
      · simp only [hall] at hrun hby
        refine ⟨.entered n .descend :: inner, fun seen => ?_, fun cut i hcut => ?_⟩
        · rw [walk_of_stop henter hall, walk_of_stop (hrecord seen) (hrun _)]
          simp
        · rw [brackets_eq, hcut.head, walk_of_stop henter hall]
          exact hentered.append ((hby cut (i + 1) hcut.tail).stop _)

/-- The numbers of the steps that skip children. -/
def skipsAt (steps : List (Step ε)) (k : Nat) : Bool := steps[k]?.any Step.skips

theorem cutBy_skipsAt (steps : List (Step ε)) : CutBy (skipsAt steps) 0 steps := by
  intro k step hk
  rw [Nat.zero_add, skipsAt, hk, Option.any_some]

/-- The calls of a traversal are the depth-first order with brackets in which nothing stands between
the two calls for a node whose children the visitor wants to skip, up to the first call that fails.
Its failure is the outcome, and without one every node that is entered is left. -/
theorem calls_of_walk (v : Visitor σ ε) (s : σ) (n : Node) :
    let steps := n.trace v s
    let calls := steps.map Step.call
    let order := n.brackets (skipsAt steps) 0
    n.walk v.recording (s, []) = (((n.walk v s).1, steps), (n.walk v s).2) ∧
      calls <+: order ∧
      (∀ step ∈ steps.dropLast, step.failure? = none) ∧
      steps.findSome? Step.failure? = (n.walk v s).2 ∧
      ((n.walk v s).2 = none →
        calls = order ∧ Nested calls ∧ ∀ m, calls.count (.leave m) = calls.count (.enter m)) := by
  intro steps calls order
  obtain ⟨written, hrun, hby⟩ := recorded v s n
  obtain rfl : steps = written := congrArg (·.1.2) (hrun [])
  have hgoes : GoesBy order steps (n.walk v s).2 := hby _ 0 (cutBy_skipsAt steps)
  refine ⟨hrun [], hgoes.calls, hgoes.atEnd, hgoes.failure, fun hnone => ?_⟩
  have hcalls : calls = order := hgoes.complete hnone
  have hnested : Nested calls := hcalls ▸ nested_brackets _ 0 n
  exact ⟨hcalls, hnested, hnested.count_leave⟩

end Node

end TwigLint
