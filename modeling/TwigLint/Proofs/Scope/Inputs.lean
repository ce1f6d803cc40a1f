import TwigLint.Proofs.Scope.Known

/-! # Names that refer to inputs

The inputs of a component are bound in the root scope and nowhere else.  So a name refers to its
input exactly if the root scope binds it to one, and no node around hides it: none of them has a
scope open that binds the name or that is isolated.
-/

namespace TwigLint

namespace Tracker

/-! ## Scopes above the root scope -/

/-- The open scopes above the root scope, innermost first. -/
def upperScopes (t : Tracker) : List Scope := t.scopes.dropLast

def rootScope (t : Tracker) : Scope := t.scopes.getLast (List.cons_ne_nil _ _)

theorem scopes_eq (t : Tracker) : t.scopes = t.upperScopes ++ [t.rootScope] :=
  (List.dropLast_append_getLast _).symm

theorem upperScopes_push (t : Tracker) (isolated : Bool) (owner : Option Node) :
    (t.push isolated owner).upperScopes = ⟨[], isolated, owner⟩ :: t.upperScopes := rfl

theorem upperScopes_pop (t : Tracker) : t.pop.upperScopes ⊆ t.upperScopes := by
  intro s hs
  unfold pop at hs
  split at hs
  · exact hs
  · rename_i first rest houter
    rw [upperScopes, scopes, houter]
    exact List.mem_cons_of_mem _ hs

/-- The same scopes are above the root scope, but for what the innermost one binds. -/
theorem mem_upperScopes {t t' : Tracker} (houter : t'.outer = t.outer) {s : Scope}
    (hs : s ∈ t'.upperScopes) : s ∈ t.upperScopes ∨ s = t'.current ∧ t.current ∈ t.upperScopes := by
  unfold upperScopes scopes at hs ⊢
  rw [houter] at hs
  cases houter : t.outer with
  | nil =>
    rw [houter] at hs
    cases hs
  | cons first rest =>
    rw [houter] at hs
    rcases List.mem_cons.mp hs with rfl | hs
    · exact .inr ⟨rfl, List.mem_cons_self ..⟩
    · exact .inl (List.mem_cons_of_mem _ hs)

/-! ## Where inputs are bound -/

/-- No scope above the root scope binds a name to an input, and no name that is visible everywhere
refers to one. -/
structure RootsInputs (t : Tracker) : Prop where
  scopes : ∀ s ∈ t.upperScopes, ∀ entry ∈ s.names, t.NoInput entry.2
  injected : ∀ entry ∈ t.injected, t.NoInput entry.2

namespace RootsInputs

variable {t : Tracker}

theorem changes {t' : Tracker} (h : t.RootsInputs) (ht : Changes t t') : t'.RootsInputs := by
  have hkept {i : Nat} (hi : t.NoInput i) : t'.NoInput i := hi.changes ht
  have hcontinues := ht.continues
  refine ⟨fun s hs entry hentry => ?_, fun entry hentry => ?_⟩
  · rcases mem_upperScopes hcontinues.outer hs with hold | ⟨rfl, hcurrent⟩
    · exact hkept (h.scopes s hold entry hentry)
    · cases ht with
      | same | mark _ => exact hkept (h.scopes _ hcurrent entry hentry)
      | bind b seq hb =>
        rcases List.mem_cons.mp hentry with rfl | hentry
        · -- the name is bound to something new, which is no input
          intro c hc
          simp only [bindName, Array.getElem?_push_size] at hc
          cases hc
          exact hb
        · exact hkept (h.scopes _ hcurrent entry hentry)
  · rw [hcontinues.injected] at hentry
    exact hkept (h.injected entry hentry)

theorem push (h : t.RootsInputs) (isolated : Bool) (owner : Option Node) :
    (t.push isolated owner).RootsInputs := by
  refine ⟨fun s hs entry hentry => ?_, h.injected⟩
  rcases List.mem_cons.mp (upperScopes_push t isolated owner ▸ hs) with rfl | hs
  · cases hentry
  · exact h.scopes s hs entry hentry

theorem pop (h : t.RootsInputs) : t.pop.RootsInputs := by
  have hstore : t.pop.store = t.store ∧ t.pop.injected = t.injected :=
    holds_pop (P := fun t' => t'.store = t.store ∧ t'.injected = t.injected) ⟨rfl, rfl⟩
      fun _ _ _ => ⟨rfl, rfl⟩
  refine ⟨fun s hs entry hentry => ?_, fun entry hentry => ?_⟩
  · rw [NoInput, hstore.1]
    exact h.scopes s (upperScopes_pop t hs) entry hentry
  · rw [NoInput, hstore.1]
    exact h.injected entry (hstore.2 ▸ hentry)

theorem apply (h : t.RootsInputs) (op : ScopeOp) : (t.apply op).RootsInputs :=
  holds_apply changes push pop h op

theorem run (h : t.RootsInputs) (ops : List ScopeOp) : (t.run ops).RootsInputs :=
  holds_run apply h ops

end RootsInputs

theorem rootsInputs_new (inputs injected : List Text) (report : Bool) :
    (Tracker.new inputs injected report).RootsInputs where
  scopes s hs := by
    rw [upperScopes, Tracker.scopes, (new_scopes _ _ _).1] at hs
    cases hs
  injected := noInput_new inputs injected report

/-! ## Owners of scopes -/

/-- Every scope above the root scope belongs to one of the given nodes. -/
def Owned (t : Tracker) (around : List Node) : Prop :=
  ∀ s ∈ t.upperScopes, ∃ p ∈ around, s.owner = some p ∧ opensScope p.kind = true

namespace Owned

variable {t : Tracker} {around : List Node}

theorem continues {t' : Tracker} (h : Owned t around) (ht : Continues t t') : Owned t' around := by
  intro s hs
  rcases mem_upperScopes ht.outer hs with hold | ⟨rfl, hcurrent⟩
  · exact h s hold
  · rw [ht.owner]
    exact h t.current hcurrent

theorem cons (h : Owned t around) (n : Node) : Owned t (n :: around) := by
  intro s hs
  obtain ⟨p, hp, howner⟩ := h s hs
  exact ⟨p, List.mem_cons_of_mem _ hp, howner⟩

theorem push (h : Owned t around) (isolated : Bool) {n : Node} (hn : n ∈ around)
    (hopens : opensScope n.kind = true) : Owned (t.push isolated (some n)) around := by
  intro s hs
  rcases List.mem_cons.mp (upperScopes_push t isolated (some n) ▸ hs) with rfl | hs
  · exact ⟨n, hn, rfl, hopens⟩
  · exact h s hs

theorem onSlot (h : Owned t around) {n : Node} (hn : n ∈ around) (slot : Slot) :
    Owned (t.run (t.onSlot n slot)) around := by
  rcases onSlot_cases t n slot with
    heq | ⟨hopens, heq | ⟨isolated, prepare, -, hprepare, heq⟩⟩
  · rw [heq]
    exact h
  · rw [heq, closing]
    split
    · exact fun s hs => h s (upperScopes_pop t hs)
    · exact h
  · rw [heq, opening]
    split
    · exact h
    · exact (h.push isolated hn hopens).continues ((matched_of_isChange hprepare).continues _)

end Owned

theorem owned_of_outer {t : Tracker} (houter : t.outer = []) (around : List Node) :
    t.Owned around := by
  intro s hs
  rw [upperScopes, scopes, houter] at hs
  cases hs

/-! ## Hidden names -/

/-- A loop, arrow function or macro, or an `embed` or `with` tag, has a scope open above the root
scope, at which looking up the name ends. -/
structure Hides (t : Tracker) (p : Node) (name : Text) : Prop where
  opens : opensScope p.kind = true
  scope : ∃ s ∈ t.upperScopes, s.owner = some p ∧ s.stops name = true

/-- The root scope binds the name to an input. -/
def RootInput (t : Tracker) (name : Text) : Prop :=
  ∃ i b, t.rootScope.names.lookup name = some i ∧ t.store[i]? = some b ∧ b.kind = .input

/-- The name refers to the input of this name. -/
def MeansInput (t : Tracker) (name : Text) : Prop :=
  ∃ b, t.lookup? name = some b ∧ b.kind = .input ∧ b.name = name

section

variable {t : Tracker} {name : Text}

/-- Looking up a name that refers to an input passes all scopes above the root scope. -/
theorem MeansInput.inRoot (h : t.MeansInput name) (hinputs : t.RootsInputs) :
    t.RootInput name ∧ ∀ s ∈ t.upperScopes, s.stops name = false := by
  obtain ⟨b, hb, hinput, -⟩ := h
  obtain ⟨i, hi, hb⟩ := Option.bind_eq_some_iff.mp hb
  -- a name that is visible everywhere refers to no input
  have hfound : findIn name (t.upperScopes ++ [t.rootScope]) = some i := by
    rw [resolve?, t.scopes_eq] at hi
    split at hi
    · rename_i j hj
      rw [hj, ← hi]
    · exact absurd hinput (hinputs.injected _ (mem_of_lookup hi) b hb)
  have hpasses : ∀ s ∈ t.upperScopes, s.stops name = false := by
    intro s hs
    rw [Bool.eq_false_iff]
    intro hstops
    rw [findIn_within ⟨s, hs, hstops⟩] at hfound
    obtain ⟨s', hs', hlookup⟩ := lookup_of_findIn hfound
    exact hinputs.scopes s' hs' _ (mem_of_lookup hlookup) b hb hinput
  rw [findIn_past hpasses, findIn_single] at hfound
  exact ⟨⟨i, b, hfound, hb, hinput⟩, hpasses⟩

theorem RootInput.meansInput (h : t.RootInput name) (hnamed : t.Named)
    (hpasses : ∀ s ∈ t.upperScopes, s.stops name = false) : t.MeansInput name := by
  obtain ⟨i, b, hroot, hb, hinput⟩ := h
  have hi : t.resolve? name = some i := by
    rw [resolve?, t.scopes_eq, findIn_past hpasses, findIn_single, hroot]
  obtain ⟨c, hc, hname⟩ := hnamed.resolve? hi
  obtain rfl : c = b := Option.some.inj (hc ▸ hb)
  exact ⟨c, by rw [lookup?, hi, Option.bind_some, hc], hinput, hname⟩

/-- Every scope at which looking up a name ends belongs to a node around that hides it. -/
theorem Owned.passes_iff {around : List Node} (h : t.Owned around) :
    (∀ s ∈ t.upperScopes, s.stops name = false) ↔ ∀ p ∈ around, ¬ t.Hides p name := by
  constructor
  · intro hpasses p _ hhides
    obtain ⟨s, hs, -, hstops⟩ := hhides.scope
    rw [hpasses s hs] at hstops
    cases hstops
  · intro hclear s hs
    rw [Bool.eq_false_iff]
    intro hstops
    obtain ⟨p, hp, howner, hopens⟩ := h s hs
    exact hclear p hp ⟨hopens, s, hs, howner, hstops⟩

end

/-- A name refers to its input exactly if the root scope binds it to one and no node around hides
it. -/
theorem meansInput_iff {t : Tracker} {around : List Node} (hnamed : t.Named)
    (hinputs : t.RootsInputs) (howned : t.Owned around) (name : Text) :
    t.MeansInput name ↔ t.RootInput name ∧ ∀ p ∈ around, ¬ t.Hides p name := by
  rw [← howned.passes_iff]
  exact ⟨fun h => h.inRoot hinputs, fun h => h.1.meansInput hnamed h.2⟩

end Tracker

/-- At every moment of a walk, the scopes above the root scope belong to nodes around. -/
theorem ScopedWalk.owned_of_mem_moments {root : Node} {s : State} {t : Tracker}
    (hs : s.scope = some t) (ht : t.Foreign root) (h : t.Owned s.ancestors) :
    ∀ m ∈ moments s root, ∃ u, m.1.scope = some u ∧ u.Owned m.1.ancestors := by
  intro m hm
  obtain ⟨u, hu, -, howned⟩ := holds_at_moments (P := Tracker.Owned)
    (fun hops h => h.continues (hops.continues _))
    (fun _ slot h => h.onSlot (List.mem_cons_self ..) slot) (fun n h => h.cons n) hs ht h m hm
  exact ⟨u, hu, howned⟩

end TwigLint
