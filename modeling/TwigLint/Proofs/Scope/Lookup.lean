import TwigLint.Lint.Scope.Basic

/-! # Looking up names

A name is looked up in the nearest scope that binds it or that is isolated.  So the scopes in front
of that one can be left out, and those behind it as well.
-/

namespace TwigLint

/-- Looking up the name ends at the scope. -/
def Scope.stops (s : Scope) (name : Text) : Bool :=
  s.isolated || (s.names.lookup name).isSome

namespace Tracker

variable {name : Text} {i : Nat}

theorem mem_of_lookup {names : List (Text × Nat)} (h : names.lookup name = some i) :
    (name, i) ∈ names := by
  obtain ⟨before, behind, rfl, -⟩ := List.lookup_eq_some_iff.mp h
  simp

/-! ## Lists of scopes -/

section

variable {scopes inner outer : List Scope}

theorem findIn_eq (name : Text) (scopes : List Scope) :
    findIn name scopes = (scopes.find? (·.stops name)).bind (·.names.lookup name) := by
  induction scopes with
  | nil => rfl
  | cons s rest ih =>
    rw [findIn, List.find?_cons]
    cases hlookup : s.names.lookup name with
    | some i => simp [Scope.stops, hlookup]
    | none => cases hisolated : s.isolated <;> simp [Scope.stops, hlookup, hisolated, ih]

theorem lookup_of_findIn (h : findIn name scopes = some i) :
    ∃ s ∈ scopes, s.names.lookup name = some i := by
  rw [findIn_eq] at h
  obtain ⟨s, hs, hlookup⟩ := Option.bind_eq_some_iff.mp h
  exact ⟨s, List.mem_of_find?_eq_some hs, hlookup⟩

theorem mem_of_findIn (h : findIn name scopes = some i) : ∃ s ∈ scopes, (name, i) ∈ s.names := by
  obtain ⟨s, hs, hlookup⟩ := lookup_of_findIn h
  exact ⟨s, hs, mem_of_lookup hlookup⟩

theorem findIn_past (h : ∀ s ∈ inner, s.stops name = false) :
    findIn name (inner ++ outer) = findIn name outer := by
  have hnone : inner.find? (·.stops name) = none := List.find?_eq_none.mpr (by simpa using h)
  rw [findIn_eq, List.find?_append, hnone, Option.none_or, ← findIn_eq]

theorem findIn_within (h : ∃ s ∈ inner, s.stops name = true) (outer : List Scope) :
    findIn name (inner ++ outer) = findIn name inner := by
  have hsome : (inner.find? (·.stops name)).isSome := List.find?_isSome.mpr h
  rw [findIn_eq, List.find?_append, Option.or_of_isSome hsome, ← findIn_eq]

theorem findIn_single (name : Text) (s : Scope) : findIn name [s] = s.names.lookup name := by
  rw [findIn]
  cases s.names.lookup name with
  | some i => rfl
  | none => simp [findIn]

/-- A name is looked up no further than the nearest isolated scope. -/
theorem findIn_isolated (name : Text) (upper rest : List Scope) {s : Scope}
    (hs : s.isolated = true) : findIn name (upper ++ s :: rest) = findIn name (upper ++ [s]) := by
  rw [List.append_cons]
  exact findIn_within ⟨s, by simp, by simp [Scope.stops, hs]⟩ rest

theorem findIn_unbound {s : Scope} (hunbound : ∀ s' ∈ inner ++ [s], s'.names.lookup name = none)
    (hs : s.isolated = true) (outer : List Scope) : findIn name (inner ++ s :: outer) = none := by
  rw [findIn_isolated name inner outer hs]
  refine Option.eq_none_iff_forall_ne_some.mpr fun i hi => ?_
  obtain ⟨s', hs', hlookup⟩ := lookup_of_findIn hi
  rw [hunbound s' hs'] at hlookup
  cases hlookup

/-- A name that the root scope binds is not found only where an isolated scope is in between. -/
theorem isolated_of_findIn {root : Scope} (hscopes : scopes = inner ++ [root])
    (hroot : (root.names.lookup name).isSome = true) (hnone : findIn name scopes = none) :
    ∃ inner s outer, scopes = inner ++ s :: outer ∧ s.isolated = true ∧
      ∀ s' ∈ inner ++ [s], s'.names.lookup name = none := by
  obtain ⟨s, hs⟩ : ∃ s, scopes.find? (·.stops name) = some s := by
    apply Option.isSome_iff_exists.mp
    exact List.find?_isSome.mpr ⟨root, by simp [hscopes], by simp [Scope.stops, hroot]⟩
  rw [findIn_eq, hs, Option.bind_some] at hnone
  obtain ⟨hstops, before, behind, heq, hpassed⟩ := List.find?_eq_some_iff_append.mp hs
  -- the scope at which looking up ends does not bind the name
  have hisolated : s.isolated = true := by simpa [Scope.stops, hnone] using hstops
  refine ⟨before, s, behind, heq, hisolated, fun s' hs' => ?_⟩
  rcases List.mem_append.mp hs' with hs' | hs'
  · have hunbound := hpassed s' hs'
    simp only [Scope.stops, Bool.not_or, Bool.and_eq_true] at hunbound
    simpa using hunbound.2
  · rw [List.mem_singleton.mp hs']
    exact hnone

end

/-! ## Trackers -/

theorem resolve?_bindName (t : Tracker) (b : Binding) :
    (t.bindName b).resolve? b.name = some t.store.size := by
  simp [resolve?, scopes, bindName, findIn]

theorem resolve?_bindName_of_ne {t : Tracker} {b : Binding} (h : b.name ≠ name) :
    (t.bindName b).resolve? name = t.resolve? name := by
  have hne : (name == b.name) = false := beq_eq_false_iff_ne.mpr (Ne.symm h)
  simp only [resolve?, scopes, bindName, findIn, List.lookup_cons, hne]

theorem resolve?_push (t : Tracker) (owner : Option Node) (name : Text) :
    (t.push false owner).resolve? name = t.resolve? name := by
  simp [resolve?, scopes, push, findIn]

end Tracker

end TwigLint
