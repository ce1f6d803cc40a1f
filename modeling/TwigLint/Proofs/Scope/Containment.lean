import TwigLint.Proofs.Scope.Trace
import TwigLint.Proofs.Scope.Isolation

/-! # Trees that keep their names to themselves

A tree is confined when it binds names only below slots at which a scope is open.  Walking a
confined tree leaves all open scopes as they are: every name refers to the binding that it referred
to before, which may have become used.
-/

namespace TwigLint

namespace Tracker

/-! ## Confined trees -/

/-- The scope of a node of this kind is open at the slot. -/
def opensAt : Kind → Slot → Bool
  | .forTag, .keyTarget | .forTag, .valueTarget | .forTag, .body => true
  | .arrow, _ | .macroTag, _ => true
  | .embedTag, .body | .withTag, .body => true
  | _, _ => false

/-- A tree that binds names only below slots at which a scope is open. -/
inductive Confined : Node → Prop
  | node {n : Node} (bindsNone : n.kind ≠ .assignName)
      (outside : ∀ entry ∈ n.children, opensAt n.kind entry.1 = false → Confined entry.2) :
      Confined n

theorem owner_opening (t : Tracker) (node : Node) (isolated : Bool) {prepare : List ScopeOp}
    (h : ∀ op ∈ prepare, op.isChange = true) :
    (t.run (t.opening node isolated prepare)).current.owner = some node := by
  unfold opening
  split
  · assumption
  · exact ((matched_of_isChange h).continues (t.push isolated (some node))).owner

/-- Going on to such a slot leaves the scope of the node innermost. -/
theorem owner_onSlot {node : Node} {slot : Slot} (h : opensAt node.kind slot = true) (t : Tracker) :
    (t.run (t.onSlot node slot)).current.owner = some node := by
  have hinject (name : Text) : ∀ op ∈ [ScopeOp.inject name], op.isChange = true := by
    simp [ScopeOp.isChange]
  unfold opensAt at h
  split at h <;> simp only [onSlot, *]
  · exact owner_opening t node _ (hinject _)
  · exact owner_opening t node _ (hinject _)
  · exact owner_opening t node _ (hinject _)
  · exact owner_opening t node _ (by simp)
  · exact owner_opening t node _ (hinject _)
  · exact owner_opening t node _ isChange_declareKeys
  · exact owner_opening t node _ isChange_declareKeys
  · cases h

/-- Only nodes that bind a name do more than using names when they are entered. -/
theorem contained_onEnter {node : Node} (h : node.kind ≠ .assignName) (t : Tracker)
    (ancestors : List Node) : Contained (t.onEnter node ancestors) := by
  fun_cases onEnter t node ancestors with
  | case4 hkind => exact absurd hkind h
  | case1 | case2 => exact .use .nil
  | _ => exact .nil

/-- The operations of walking a confined tree bind names only inside the scopes that they open. -/
theorem Confined.operations {node : Node} (h : Confined node) {t : Tracker}
    (ht : Foreign t node) (ancestors : List Node) : Contained (t.operations ancestors node) := by
  induction h generalizing t ancestors with
  | @node n bindsNone _ ih =>
    refine operations_completes closed_contained ht (contained_onEnter bindsNone t ancestors)
      (fun entry _ t ancestors h => matched_operations ancestors h) ?_
    -- outside of the scope of the node, the children are confined themselves
    intro entry hentry t ancestors howner hforeign
    refine ih entry hentry ?_ hforeign ancestors
    rw [Bool.eq_false_iff]
    exact fun hopens => howner (owner_onSlot hopens t)

/-! ## Look-up -/

/-- The same names are visible in the second tracker, with the same bindings, some of which may have
become used. -/
def KeepsNames (t t' : Tracker) : Prop :=
  ∀ name, t'.resolve? name = t.resolve? name ∧
    Option.Rel Binding.Later (t.lookup? name) (t'.lookup? name)

theorem KeepsNames.of_scopes_eq {t t' : Tracker} (ht : t.Valid) (hscopes : t'.scopes = t.scopes)
    (hinjected : t'.injected = t.injected) (hstore : StoreKept t t') : KeepsNames t t' := by
  intro name
  have hresolve : t'.resolve? name = t.resolve? name := by
    rw [resolve?, hscopes, hinjected, resolve?]
  refine ⟨hresolve, ?_⟩
  unfold lookup?
  rw [hresolve]
  cases hfound : t.resolve? name with
  | none => exact .none
  | some i =>
    have hi := Array.getElem?_eq_getElem (ht.lt_of_resolve? hfound)
    obtain ⟨b', hb', hlater⟩ := hstore i _ hi
    simp only [Option.bind_some, hi, hb']
    exact .some hlater

/-- Walking a confined tree leaves the names as they were. -/
theorem Confined.keepsNames {node : Node} (h : Confined node) {t : Tracker} (ht : Foreign t node)
    (hvalid : t.Valid) (ancestors : List Node) :
    KeepsNames t (t.run (t.operations ancestors node)) := by
  have hcontained := h.operations ht ancestors
  have hcontinues := hcontained.matched.continues t
  refine .of_scopes_eq hvalid ?_ hcontinues.injected hcontinues.store
  rw [scopes, hcontained.current, hcontinues.outer, scopes]

end Tracker

end TwigLint
