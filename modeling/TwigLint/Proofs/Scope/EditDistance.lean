import TwigLint.Lint.Scope.Suggest
import Mathlib.Order.MinMax
import Mathlib.Order.Nat

/-! # The distance of two texts

The table of distances is filled row by row with the costs of aligning the beginnings of two texts.
An alignment is a way to edit one text into the other, byte by byte, and no single edit changes the
cost by more than one.  So the last entry is the least number of edits.
-/

namespace TwigLint

/-- One byte is inserted, deleted or substituted. -/
inductive Edit : Text → Text → Prop
  | insert (before behind : Text) (b : UInt8) : Edit (before ++ behind) (before ++ b :: behind)
  | delete (before behind : Text) (a : UInt8) : Edit (before ++ a :: behind) (before ++ behind)
  | substitute (before behind : Text) (a b : UInt8) :
    Edit (before ++ a :: behind) (before ++ b :: behind)

/-- A number of edits turns one text into another. -/
inductive Edits : Nat → Text → Text → Prop
  | done (t : Text) : Edits 0 t t
  | step {k : Nat} {s t u : Text} (first : Edit s t) (rest : Edits k t u) : Edits (k + 1) s u

/-! ## Edits -/

theorem Edits.trans {k l : Nat} {s t u : Text} (hst : Edits k s t) (htu : Edits l t u) :
    Edits (k + l) s u := by
  induction hst with
  | done t => rwa [Nat.zero_add]
  | step first _ ih =>
    rw [Nat.add_right_comm]
    exact .step first (ih htu)

theorem Edits.single {s t : Text} (h : Edit s t) : Edits 1 s t := .step h (.done t)

/-- An edit is undone by an edit: a deleted byte is inserted where it stood. -/
theorem Edit.symm {s t : Text} (h : Edit s t) : Edit t s := by
  cases h with
  | insert before behind b => exact .delete before behind b
  | delete before behind a => exact .insert before behind a
  | substitute before behind a b => exact .substitute before behind b a

theorem Edits.symm {k : Nat} {s t : Text} (h : Edits k s t) : Edits k t s := by
  induction h with
  | done t => exact .done t
  | step first _ ih => exact ih.trans (.single first.symm)

theorem edits_zero_iff {s t : Text} : Edits 0 s t ↔ s = t := by
  constructor
  · intro h
    cases h with
    | done t => rfl
  · rintro rfl
    exact .done s

theorem Edit.cons (c : UInt8) {s t : Text} (h : Edit s t) : Edit (c :: s) (c :: t) := by
  cases h with
  | insert before behind b => exact .insert (c :: before) behind b
  | delete before behind a => exact .delete (c :: before) behind a
  | substitute before behind a b => exact .substitute (c :: before) behind a b

theorem Edits.cons (c : UInt8) {k : Nat} {s t : Text} (h : Edits k s t) :
    Edits k (c :: s) (c :: t) := by
  induction h with
  | done t => exact .done _
  | step first _ ih => exact .step (first.cons c) ih

theorem Edit.reverse {s t : Text} (h : Edit s t) : Edit s.reverse t.reverse := by
  cases h with
  | insert before behind b => simpa using Edit.insert behind.reverse before.reverse b
  | delete before behind a => simpa using Edit.delete behind.reverse before.reverse a
  | substitute before behind a b =>
    simpa using Edit.substitute behind.reverse before.reverse a b

theorem Edits.reverse {k : Nat} {s t : Text} (h : Edits k s t) :
    Edits k s.reverse t.reverse := by
  induction h with
  | done t => exact .done _
  | step first _ ih => exact .step first.reverse ih

theorem edits_reverse_iff {k : Nat} {s t : Text} : Edits k s.reverse t.reverse ↔ Edits k s t :=
  ⟨fun h => by simpa using h.reverse, Edits.reverse⟩

/-! ## Alignments -/

namespace EditDistance

/-- The least cost of aligning two texts: an unmatched byte costs one, and so does a pair of
different bytes. -/
def cost : Text → Text → Nat
  | [], t => t.length
  | s, [] => s.length
  | a :: s, b :: t =>
    min (min (cost s (b :: t) + 1) (cost (a :: s) t + 1)) (cost s t + if a == b then 0 else 1)
termination_by s t => s.length + t.length

@[simp] theorem cost_nil_left (t : Text) : cost [] t = t.length := by rw [cost]

@[simp] theorem cost_nil_right (s : Text) : cost s [] = s.length := by
  cases s with
  | nil => exact cost_nil_left []
  | cons a s =>
    rw [cost]
    exact List.cons_ne_nil a s

theorem cost_cons_cons (a b : UInt8) (s t : Text) : cost (a :: s) (b :: t) =
    min (min (cost s (b :: t) + 1) (cost (a :: s) t + 1))
      (cost s t + if a == b then 0 else 1) := by
  rw [cost]

theorem edits_nil_left (t : Text) : Edits t.length [] t := by
  induction t with
  | nil => exact .done []
  | cons b t ih => exact ih.trans (.single (.insert [] t b))

theorem edits_nil_right (s : Text) : Edits s.length s [] := by
  induction s with
  | nil => exact .done []
  | cons a s ih => exact .step (.delete [] s a) ih

/-- An alignment is a way to edit. -/
theorem edits_cost (s t : Text) : Edits (cost s t) s t := by
  induction s, t using cost.induct with
  | case1 t =>
    rw [cost_nil_left]
    exact edits_nil_left t
  | case2 s =>
    rw [cost_nil_right]
    exact edits_nil_right s
  | case3 a s b t hdelete hinsert hpair =>
    rw [cost_cons_cons]
    rcases min_choice (min (cost s (b :: t) + 1) (cost (a :: s) t + 1))
        (cost s t + if a == b then 0 else 1) with hmin | hmin
    · rw [hmin]
      rcases min_choice (cost s (b :: t) + 1) (cost (a :: s) t + 1) with hmin | hmin
      · rw [hmin]
        exact .step (.delete [] s a) hdelete
      · rw [hmin]
        exact hinsert.trans (.single (.insert [] t b))
    · rw [hmin]
      by_cases hab : a = b
      · rw [hab, beq_self_eq_true, if_pos rfl]
        exact hpair.cons b
      · rw [beq_false_of_ne hab]
        exact .step (.substitute [] s a b) (hpair.cons b)

/-! ## Single edits -/

theorem cost_cons_left_le (a : UInt8) (s t : Text) : cost (a :: s) t ≤ cost s t + 1 := by
  cases t with
  | nil => simp
  | cons b t =>
    rw [cost_cons_cons]
    omega

theorem cost_cons_right_le (b : UInt8) (s t : Text) : cost s (b :: t) ≤ cost s t + 1 := by
  cases s with
  | nil => simp
  | cons a s =>
    rw [cost_cons_cons]
    omega

theorem cost_le_cons_left (a : UInt8) (s t : Text) : cost s t ≤ cost (a :: s) t + 1 := by
  induction t with
  | nil =>
    rw [cost_nil_right, cost_nil_right, List.length_cons]
    omega
  | cons b t ih =>
    have hright := cost_cons_right_le b s t
    rw [cost_cons_cons]
    omega

theorem cost_substitute_le (a b : UInt8) (s t : Text) : cost (a :: s) t ≤ cost (b :: s) t + 1 := by
  induction t with
  | nil => simp
  | cons c t ih =>
    rw [cost_cons_cons, cost_cons_cons]
    split <;> split <;> omega

/-- What changes the cost by at most one still does behind a byte. -/
theorem cost_cons_congr (a : UInt8) {s s' : Text} (h : ∀ t, cost s t ≤ cost s' t + 1) (t : Text) :
    cost (a :: s) t ≤ cost (a :: s') t + 1 := by
  induction t with
  | nil => simpa using h []
  | cons b t ih =>
    have hwhole := h (b :: t)
    have hrest := h t
    rw [cost_cons_cons, cost_cons_cons]
    omega

theorem cost_le_of_edit {s s' : Text} (h : Edit s s') (t : Text) : cost s t ≤ cost s' t + 1 := by
  have hprefix (before : Text) {u u' : Text} (h : ∀ t, cost u t ≤ cost u' t + 1) :
      ∀ t, cost (before ++ u) t ≤ cost (before ++ u') t + 1 := by
    induction before with
    | nil => exact h
    | cons a before ih => exact cost_cons_congr a ih
  cases h with
  | insert before behind b => exact hprefix before (cost_le_cons_left b behind) t
  | delete before behind a => exact hprefix before (cost_cons_left_le a behind) t
  | substitute before behind a b => exact hprefix before (cost_substitute_le a b behind) t

theorem cost_self (t : Text) : cost t t = 0 := by
  induction t with
  | nil => simp
  | cons b t ih => simp [cost_cons_cons, ih]

theorem cost_le_of_edits {k : Nat} {s t : Text} (h : Edits k s t) : cost s t ≤ k := by
  induction h with
  | done t => rw [cost_self]
  | step first _ ih =>
    have hfirst := cost_le_of_edit first
    exact (hfirst _).trans (Nat.succ_le_succ ih)

/-- The cost of an alignment is the least number of edits. -/
theorem isLeast_cost (s t : Text) : IsLeast {k | Edits k s t} (cost s t) :=
  ⟨edits_cost s t, fun _ h => cost_le_of_edits h⟩

/-! ## The table -/

/-- The costs of aligning a text with the extensions of another one by the beginnings of a third.
All texts are read backwards. -/
def extensions (source begun : Text) : Text → List Nat
  | [] => []
  | b :: target => cost source (b :: begun) :: extensions source (b :: begun) target

theorem rowTail_extensions (a : UInt8) (source begun target : Text) :
    rowTail a target (cost source begun) (extensions source begun target)
        (cost (a :: source) begun) =
      extensions (a :: source) begun target := by
  induction target generalizing begun with
  | nil => rfl
  | cons b target ih =>
    have hentry := cost_cons_cons a b source begun
    rw [extensions, rowTail, extensions, ← hentry, ih]

/-- The row of the table for the beginning of the source that was read. -/
def costs (read target : Text) : List Nat := cost read [] :: extensions read [] target

theorem nextRow_costs (a : UInt8) (read target : Text) :
    nextRow target (costs read target) a = costs (a :: read) target := by
  have hfirst : cost read [] + 1 = cost (a :: read) [] := by simp
  rw [costs, nextRow, hfirst, rowTail_extensions, costs]

theorem extensions_nil (begun target : Text) :
    begun.length :: extensions [] begun target =
      List.range' begun.length (target.length + 1) := by
  induction target generalizing begun with
  | nil => rfl
  | cons b target ih =>
    rw [extensions, cost_nil_left, ih, List.length_cons, List.length_cons,
      List.range'_succ (n := target.length + 1)]

theorem lastRow_eq (source target : Text) :
    lastRow source target = costs source.reverse target := by
  have hrows (read source : Text) : source.foldl (nextRow target) (costs read target) =
      costs (source.reverse ++ read) target := by
    induction source generalizing read with
    | nil => rfl
    | cons a source ih => simp [nextRow_costs, ih]
  have hfirst : List.range (target.length + 1) = costs [] target := by
    rw [costs, cost_nil_left, extensions_nil, List.range_eq_range', List.length_nil]
  rw [lastRow, hfirst, hrows, List.append_nil]

theorem getLastD_extensions (source begun target : Text) :
    (cost source begun :: extensions source begun target).getLastD 0 =
      cost source (target.reverse ++ begun) := by
  induction target generalizing begun with
  | nil => rfl
  | cons b target ih =>
    rw [extensions, List.reverse_cons, List.append_assoc, List.singleton_append, ← ih]
    rfl

theorem editDistance_eq (source target : Text) :
    editDistance source target = cost source.reverse target.reverse := by
  unfold editDistance
  split
  · next hsame => rw [eq_of_beq hsame, cost_self]
  · rw [lastRow_eq, costs, getLastD_extensions, List.append_nil]

end EditDistance

/-- The computed distance is the least number of edits. -/
theorem isLeast_editDistance (source target : Text) :
    IsLeast {k | Edits k source target} (editDistance source target) := by
  have hleast := EditDistance.isLeast_cost source.reverse target.reverse
  rw [EditDistance.editDistance_eq]
  simpa only [edits_reverse_iff] using hleast

theorem edits_editDistance (s t : Text) : Edits (editDistance s t) s t :=
  (isLeast_editDistance s t).1

theorem editDistance_le {k : Nat} {s t : Text} (h : Edits k s t) : editDistance s t ≤ k :=
  (isLeast_editDistance s t).2 h

/-- The computed distance is the least number of edits, and this makes it a metric on texts: edits
can be undone, no edits change nothing, and edits can be made one after the other. -/
theorem editDistance_metric (s t u : Text) :
    IsLeast {k | Edits k s t} (editDistance s t) ∧
    editDistance s t = editDistance t s ∧
    (editDistance s t = 0 ↔ s = t) ∧
    editDistance s u ≤ editDistance s t + editDistance t u := by
  refine ⟨isLeast_editDistance s t, ?symmetric, ?zero, ?triangle⟩
  case symmetric =>
    have hle (s t : Text) : editDistance s t ≤ editDistance t s :=
      editDistance_le (edits_editDistance t s).symm
    exact (hle s t).antisymm (hle t s)
  case zero =>
    constructor
    · intro hzero
      have hedits := edits_editDistance s t
      rwa [hzero, edits_zero_iff] at hedits
    · intro hst
      exact Nat.le_zero.mp (editDistance_le (edits_zero_iff.mpr hst))
  case triangle =>
    exact editDistance_le ((edits_editDistance s t).trans (edits_editDistance t u))

end TwigLint
