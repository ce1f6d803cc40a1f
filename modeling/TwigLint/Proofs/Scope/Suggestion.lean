import Mathlib
import TwigLint.Proofs.Scope.EditDistance
import TwigLint.Proofs.Scope.Isolation
import TwigLint.Proofs.Text.Order

/-! # Suggestions

The names that a tracker lists are those that look-up finds.  Going through them in their order and
taking each one that is nearer than all before gives, of the nearest names, the first one.
-/

namespace TwigLint

/-- The least number of edits that turn one text into another. -/
noncomputable def fewestEdits (s t : Text) : Nat := sInf {k | Edits k s t}

theorem editDistance_eq_fewestEdits (s t : Text) : editDistance s t = fewestEdits s t :=
  (isLeast_editDistance s t).csInf_eq.symm

namespace Tracker

/-! ## Visible names -/

theorem isSome_lookup {names : List (Text × Nat)} {name : Text} :
    (names.lookup name).isSome ↔ name ∈ names.map Prod.fst := by
  induction names with
  | nil => simp
  | cons entry names ih =>
    rw [List.lookup_cons, List.map_cons, List.mem_cons, ← ih]
    by_cases hname : name = entry.1
    · simp [hname]
    · simp [hname, beq_false_of_ne hname]

theorem isSome_findIn {name : Text} {scopes : List Scope} :
    (findIn name scopes).isSome ↔ name ∈ namesIn scopes := by
  induction scopes with
  | nil => simp [findIn, namesIn]
  | cons s rest ih =>
    rw [findIn, namesIn, List.mem_append, ← isSome_lookup]
    cases s.names.lookup name with
    | some i => simp
    | none => by_cases hs : s.isolated <;> simp [hs, ih]

/-- The listed names are those that refer to something. -/
theorem Valid.isSome_lookup? {t : Tracker} (h : t.Valid) {name : Text} :
    (t.lookup? name).isSome ↔ name ∈ t.visible := by
  rw [h.isSome_resolve?, visible, Text.mem_sort, List.mem_eraseDups, List.mem_append,
    ← isSome_findIn, ← isSome_lookup, resolve?]
  cases findIn name t.scopes <;> simp

/-! ## The nearest name -/

/-- A name can be suggested for another one, and is near enough. -/
def isNear (name candidate : Text) : Bool :=
  isCandidate name candidate && editDistance name candidate ≤ maxDistance &&
    editDistance name candidate < name.length

/-- The first of the nearest ones of some names with its distance, if any is near enough. -/
inductive Nearest (name : Text) (names : List Text) : Text × Nat → Prop
  | none (far : ∀ c ∈ names, isNear name c = false) : Nearest name names ([], maxDistance + 1)
  | some {before behind : List Text} {c : Text} (split : names = before ++ c :: behind)
    (near : isNear name c = true)
    (farther : ∀ d ∈ before, isNear name d = true → editDistance name c < editDistance name d)
    (notNearer : ∀ d ∈ behind, isNear name d = true → editDistance name c ≤ editDistance name d) :
    Nearest name names (c, editDistance name c)

theorem improve_eq {name : Text} {best : Text × Nat} (hbest : best.2 ≤ maxDistance + 1)
    (candidate : Text) : improve name best candidate =
      if isNear name candidate = true ∧ editDistance name candidate < best.2 then
        (candidate, editDistance name candidate)
      else best := by
  have hnear : editDistance name candidate < best.2 → editDistance name candidate ≤ maxDistance :=
    fun h => Nat.le_of_lt_succ (Nat.lt_of_lt_of_le h hbest)
  unfold improve isNear
  by_cases hcandidate : isCandidate name candidate = true
  · simp only [hcandidate, if_true, Bool.true_and, Bool.and_eq_true, decide_eq_true_eq]
    refine if_congr ?_ rfl rfl
    tauto
  · simp [hcandidate]

theorem isNear_le {name candidate : Text} (h : isNear name candidate = true) :
    editDistance name candidate ≤ maxDistance := by
  simp only [isNear, Bool.and_eq_true, decide_eq_true_eq] at h
  exact h.1.2

namespace Nearest

variable {name : Text} {names : List Text} {best : Text × Nat} (h : Nearest name names best)
include h

theorem le_bound : best.2 ≤ maxDistance + 1 := by
  cases h with
  | none => exact le_rfl
  | some _ near => exact Nat.le_succ_of_le (isNear_le near)

/-- No name that is near enough is nearer than the nearest one. -/
theorem le_of_mem {d : Text} (hd : d ∈ names) (hnear : isNear name d = true) :
    best.2 ≤ editDistance name d := by
  cases h with
  | none far => exact absurd hnear (by simp [far d hd])
  | some split near farther notNearer =>
    rw [split, List.mem_append, List.mem_cons] at hd
    rcases hd with hbefore | rfl | hbehind
    · exact (farther d hbefore hnear).le
    · exact le_rfl
    · exact notNearer d hbehind hnear

theorem improve (candidate : Text) :
    Nearest name (names ++ [candidate]) (improve name best candidate) := by
  rw [improve_eq h.le_bound]
  split
  · next hnew =>
    exact .some rfl hnew.1 (fun d hd hnear => hnew.2.trans_le (h.le_of_mem hd hnear))
      (List.forall_mem_nil _)
  · next hold =>
    have hlast (hnear : isNear name candidate = true) : best.2 ≤ editDistance name candidate :=
      Nat.le_of_not_lt fun hlt => hold ⟨hnear, hlt⟩
    cases h with
    | none far =>
      refine .none (List.forall_mem_append.mpr ⟨far, List.forall_mem_singleton.mpr ?_⟩)
      rw [Bool.eq_false_iff]
      exact fun hnear => absurd (isNear_le hnear) (Nat.not_le_of_lt (hlast hnear))
    | @some before behind c hsplit near farther notNearer =>
      have hnames : names ++ [candidate] = before ++ c :: (behind ++ [candidate]) := by
        simp [hsplit]
      exact .some hnames near farther
        (List.forall_mem_append.mpr ⟨notNearer, List.forall_mem_singleton.mpr hlast⟩)

end Nearest

theorem nearest_foldl (name : Text) (names : List Text) :
    Nearest name names (names.foldl (Tracker.improve name) ([], maxDistance + 1)) := by
  induction names using List.reverseRecOn with
  | nil => exact .none (by simp)
  | append_singleton names candidate ih =>
    rw [List.foldl_append]
    exact ih.improve candidate

/-! ## Suggestions -/

/-- The visible names that can be suggested for a name: at most two edits from it, and fewer than it
has bytes. -/
structure Suggestible (t : Tracker) (name candidate : Text) : Prop where
  visible : (t.lookup? candidate).isSome
  nonempty : candidate ≠ []
  different : candidate ≠ name
  notPrivate : candidate.head? ≠ some '_'
  near : fewestEdits name candidate ≤ 2
  shorter : fewestEdits name candidate < name.length

theorem Valid.suggestible_iff {t : Tracker} (h : t.Valid) {name candidate : Text} :
    t.Suggestible name candidate ↔ candidate ∈ t.visible ∧ isNear name candidate = true := by
  rw [← h.isSome_lookup?, isNear, isCandidate, editDistance_eq_fewestEdits]
  simp only [Bool.and_eq_true, Bool.not_eq_true', List.isEmpty_eq_false_iff, bne_iff_ne,
    decide_eq_true_eq]
  constructor
  · rintro ⟨hvisible, hnonempty, hdifferent, hnotPrivate, hnear, hshorter⟩
    exact ⟨hvisible, ⟨⟨⟨hnonempty, hdifferent⟩, hnotPrivate⟩, hnear⟩, hshorter⟩
  · rintro ⟨hvisible, ⟨⟨⟨hnonempty, hdifferent⟩, hnotPrivate⟩, hnear⟩, hshorter⟩
    exact ⟨hvisible, hnonempty, hdifferent, hnotPrivate, hnear, hshorter⟩

/-- Nothing is suggested exactly when no name can be.  Otherwise the suggestion is the
alphabetically first of the names that take the fewest edits. -/
theorem suggest_nearest {t : Tracker} (h : t.Reachable) (name : Text) :
    (t.suggest name = [] ↔ ∀ c, ¬ t.Suggestible name c) ∧
      ((∃ c, t.Suggestible name c) → t.Suggestible name (t.suggest name) ∧
        ∀ c, t.Suggestible name c →
          fewestEdits name (t.suggest name) < fewestEdits name c ∨
            fewestEdits name (t.suggest name) = fewestEdits name c ∧ t.suggest name ≤ c) := by
  have hiff {c : Text} : t.Suggestible name c ↔ c ∈ t.visible ∧ isNear name c = true :=
    h.valid.suggestible_iff
  have hsorted : t.visible.Pairwise (· ≤ ·) := Text.pairwise_sort _
  have hnearest := nearest_foldl name t.visible
  rw [suggest]
  generalize t.visible.foldl (improve name) ([], maxDistance + 1) = best at hnearest ⊢
  cases hnearest with
  | none far =>
    have hnone (c : Text) : ¬ t.Suggestible name c := fun hc => by
      obtain ⟨hvisible, hnear⟩ := hiff.mp hc
      exact absurd hnear (by simp [far c hvisible])
    exact ⟨iff_of_true rfl hnone, fun ⟨c, hc⟩ => absurd hc (hnone c)⟩
  | @some before behind c hsplit near farther notNearer =>
    have hc : t.Suggestible name c := hiff.mpr ⟨by simp [hsplit], near⟩
    refine ⟨iff_of_false hc.nonempty fun hnone => hnone c hc, fun _ => ⟨hc, fun d hd => ?_⟩⟩
    obtain ⟨hvisible, hnear⟩ := hiff.mp hd
    rw [hsplit] at hvisible hsorted
    rw [← editDistance_eq_fewestEdits, ← editDistance_eq_fewestEdits]
    rcases List.mem_append.mp hvisible with hbefore | hbehind
    · exact .inl (farther d hbefore hnear)
    · rcases List.mem_cons.mp hbehind with rfl | hbehind
      · exact .inr ⟨rfl, List.le_refl d⟩
      · have hcd := notNearer d hbehind hnear
        have halphabet := (List.pairwise_cons.mp (List.pairwise_append.mp hsorted).2.1).1 d hbehind
        exact (Nat.lt_or_eq_of_le hcd).imp_right fun heq => ⟨heq, halphabet⟩

/-- Three names are one edit away, a private one is too, and so is one behind an isolated scope. -/
theorem suggest_nearest_hidden :
    let t := (Tracker.new ["cots"] ["_cot", "cut"] false).run
      [.push true none, .declare "cat" 1, .push false none, .declare "coat" 1]
    t.Reachable ∧ t.Suggestible "cot" "cut" ∧ ¬ t.Suggestible "cot" "cots" ∧
      t.Suggestible "cot" (t.suggest "cot") ∧ t.suggest "cot" = "cat" := by
  intro t
  have hreachable : t.Reachable := ⟨_, _, _, _, rfl⟩
  have hcut : t.Suggestible "cot" "cut" := by
    refine hreachable.valid.suggestible_iff.mpr ⟨?_, by decide⟩
    exact hreachable.valid.isSome_lookup?.mp (by decide)
  have hsuggested := (suggest_nearest hreachable "cot").2 ⟨"cut", hcut⟩
  exact ⟨hreachable, hcut, fun h => absurd h.visible (by decide), hsuggested.1, by cbv⟩

end Tracker

end TwigLint
