import TwigLint.Lint.Diagnostic
import TwigLint.Proofs.Collections.Occurrence

/-! # Arranging findings

What dropping duplicates and sorting do to lists of findings.  Dropping duplicates keeps the first
finding of every key.  Sorting is stable, so leaving findings out commutes with it, and with
dropping duplicates as well when duplicates are left out together.
-/

namespace TwigLint.Diagnostic

/-! ## Duplicates -/

theorem go_eq (seen : List (Int × Int × Severity × Text × Text × Text)) (ds : List Diagnostic) :
    dedup.go seen ds =
      (firsts (fun a b => a.key == b.key) ds).filter fun d => !seen.contains d.key := by
  induction ds generalizing seen with
  | nil => rfl
  | cons d ds ih =>
    rw [dedup.go, firsts_cons, List.filter_cons]
    by_cases hd : seen.contains d.key
    · rw [if_pos hd, if_neg (by simpa using hd), ih, List.filter_filter]
      refine List.filter_congr fun e _ => ?_
      by_cases he : d.key = e.key
      · simp [← he, List.contains_iff_mem.mp hd]
      · simp [he]
    · rw [if_neg hd, if_pos (by simpa using hd), ih, List.filter_filter]
      congr 1
      refine List.filter_congr fun e _ => ?_
      by_cases he : d.key = e.key
      · simp [he]
      · simp [he, Ne.symm he]

/-- Dropping duplicates keeps the first finding of every key. -/
theorem dedup_eq_firsts (ds : List Diagnostic) :
    dedup ds = firsts (fun a b => a.key == b.key) ds := by
  rw [dedup, go_eq]
  simp

@[simp] theorem dedup_nil : dedup [] = [] := rfl

theorem dedup_cons (d : Diagnostic) (ds : List Diagnostic) :
    dedup (d :: ds) = d :: (dedup ds).filter fun e => e.key != d.key := by
  rw [dedup_eq_firsts, dedup_eq_firsts, firsts_cons]
  congr 1
  refine List.filter_congr fun e _ => ?_
  rw [bne, BEq.comm]

theorem dedup_sublist (ds : List Diagnostic) : List.Sublist (dedup ds) ds := by
  rw [dedup_eq_firsts]
  exact firsts_sublist _ ds

theorem mem_of_mem_dedup {d : Diagnostic} {ds : List Diagnostic} (h : d ∈ dedup ds) : d ∈ ds :=
  (dedup_sublist ds).subset h

theorem nodup_keys_dedup (ds : List Diagnostic) : ((dedup ds).map key).Nodup := by
  rw [dedup_eq_firsts, map_firsts]
  exact nodup_eraseDups _

/-- Leaving findings out commutes with dropping duplicates when duplicates are left out together. -/
theorem dedup_filter {p : Diagnostic → Bool} {ds : List Diagnostic}
    (h : ∀ d ∈ ds, ∀ e ∈ ds, d.key = e.key → p d = p e) :
    dedup (ds.filter p) = (dedup ds).filter p := by
  rw [dedup_eq_firsts, dedup_eq_firsts]
  exact firsts_filter _ fun d hd e he hkey => h d hd e he (eq_of_beq hkey)

theorem dedup_dedup (ds : List Diagnostic) : dedup (dedup ds) = dedup ds := by
  rw [dedup_eq_firsts, dedup_eq_firsts, firsts_firsts]

theorem dedup_append (xs ys : List Diagnostic) :
    dedup (xs ++ ys) = dedup xs ++ (dedup ys).filter fun d => !(xs.map key).contains d.key := by
  rw [dedup_eq_firsts, dedup_eq_firsts, dedup_eq_firsts, firsts_append]
  congr 1
  refine List.filter_congr fun d _ => ?_
  rw [List.contains_eq_any_beq, List.any_map, List.not_any_eq_all_not]
  refine List.all_congr rfl fun e => ?_
  rw [Function.comp, BEq.comm]

/-- Dropping duplicates keeps all keys. -/
theorem mem_keys_dedup {ds : List Diagnostic} {k : Int × Int × Severity × Text × Text × Text} :
    k ∈ (dedup ds).map key ↔ k ∈ ds.map key := by
  rw [dedup_eq_firsts, map_firsts, List.mem_eraseDups]

/-- Parts of a list can be replaced by parts that are the same without duplicates. -/
theorem dedup_congr {xs xs' ys ys' : List Diagnostic} (hx : dedup xs = dedup xs')
    (hy : dedup ys = dedup ys') : dedup (xs ++ ys) = dedup (xs' ++ ys') := by
  rw [dedup_append, dedup_append, hx, hy]
  congr 1
  refine List.filter_congr fun d _ => ?_
  rw [Bool.eq_iff_iff, Bool.not_eq_true', Bool.not_eq_true', Bool.eq_false_iff, Bool.eq_false_iff,
    Ne, Ne, List.contains_iff_mem, List.contains_iff_mem, ← mem_keys_dedup, hx, mem_keys_dedup]

/-- What repeats something can be left out. -/
theorem dedup_repeated {before again : List Diagnostic} (h : again ⊆ before)
    (behind : List Diagnostic) :
    dedup (before ++ (again ++ behind)) = dedup (before ++ behind) := by
  have habsorbed : dedup (before ++ again) = dedup before := by
    rw [dedup_append]
    refine List.append_right_eq_self.mpr (List.filter_eq_nil_iff.mpr fun d hd => ?_)
    have hkey : d.key ∈ before.map key := List.mem_map_of_mem (h (mem_of_mem_dedup hd))
    simpa using hkey
  rw [← List.append_assoc]
  exact dedup_congr habsorbed rfl

/-- A part that comes three times can be replaced by one that comes once. -/
theorem dedup_thrice {found found' behind behind' : List Diagnostic}
    (hfound : dedup found = dedup found') (hbehind : dedup behind = dedup behind')
    (above between below : List Diagnostic) :
    dedup (above ++ (found ++ (between ++ (found ++ (below ++ (found ++ behind)))))) =
      dedup (above ++ (found' ++ (between ++ (below ++ behind')))) := by
  have hknown (more : List Diagnostic) : found ⊆ above ++ (found ++ more) := fun d hd =>
    List.mem_append_right _ (List.mem_append_left _ hd)
  have hsecond := dedup_repeated (hknown between) (below ++ (found ++ behind))
  have hthird := dedup_repeated (hknown (between ++ below)) behind
  simp only [List.append_assoc] at hsecond hthird
  rw [hsecond, hthird]
  exact dedup_congr rfl (dedup_congr hfound (dedup_congr rfl (dedup_congr rfl hbehind)))

/-! ## Order -/

/-- A list that is cut where a property ends is filtered to its front by it. -/
theorem filter_append_of_cut {α : Type} {q : α → Bool} {u v : List α} (hu : ∀ b ∈ u, q b = true)
    (hv : ∀ b ∈ v, q b = false) : (u ++ v).filter q = u := by
  rw [List.filter_append, List.filter_eq_self.mpr hu,
    List.filter_eq_nil_iff.mpr fun b hb => by simp [hv b hb], List.append_nil]

/-- No element behind the first one of a list is in front of it when the list is sorted. -/
theorem not_below_of_mem_behind {α : Type} {le : α → α → Bool}
    (trans : ∀ a b c, le a b = true → le b c = true → le a c = true)
    (total : ∀ a b, (le a b || le b a) = true) {a : α} {l l₁ l₂ : List α}
    (h : (a :: l).mergeSort le = l₁ ++ a :: l₂) : ∀ b ∈ l₂, (!le a b) = false := by
  intro b hb
  have hsorted := List.pairwise_mergeSort trans total (a :: l)
  rw [h] at hsorted
  have hle := (List.pairwise_cons.mp (List.pairwise_append.mp hsorted).2.1).1 b hb
  simp [hle]

/-- Leaving elements out commutes with a stable sort. -/
theorem filter_mergeSort {α : Type} {le : α → α → Bool}
    (trans : ∀ a b c, le a b = true → le b c = true → le a c = true)
    (total : ∀ a b, (le a b || le b a) = true) (p : α → Bool) (l : List α) :
    (l.mergeSort le).filter p = (l.filter p).mergeSort le := by
  induction l with
  | nil => rw [List.filter_nil, List.mergeSort_nil, List.filter_nil]
  | cons a l ih =>
    obtain ⟨l₁, l₂, hal, hl, hl₁⟩ := List.mergeSort_cons trans total a l
    rw [hal, List.filter_append, List.filter_cons, List.filter_cons]
    by_cases ha : p a
    · obtain ⟨m₁, m₂, ham, hm, hm₁⟩ := List.mergeSort_cons trans total a (l.filter p)
      rw [if_pos ha, if_pos ha, ham]
      -- both sides cut the same sorted list where its elements are no longer below `a`
      have hsplit : m₁ ++ m₂ = l₁.filter p ++ l₂.filter p := by
        rw [← hm, ← ih, hl, List.filter_append]
      have hbehind : ∀ b ∈ l₂.filter p, (!le a b) = false := fun b hb =>
        not_below_of_mem_behind trans total hal b (List.mem_filter.mp hb).1
      have hfirst : m₁ = l₁.filter p := by
        rw [← filter_append_of_cut hm₁ (not_below_of_mem_behind trans total ham), hsplit]
        exact filter_append_of_cut (fun b hb => hl₁ b (List.mem_filter.mp hb).1) hbehind
      rw [hfirst] at hsplit ⊢
      rw [List.append_cancel_left hsplit]
    · rw [if_neg ha, if_neg ha, ← ih, hl, List.filter_append]

/-- Elements that are all in front of one another keep their order when a list is sorted. -/
theorem filter_mergeSort_of_tied {α : Type} {le : α → α → Bool}
    (trans : ∀ a b c, le a b = true → le b c = true → le a c = true)
    (total : ∀ a b, (le a b || le b a) = true) {p : α → Bool} {l : List α}
    (h : ∀ a ∈ l, ∀ b ∈ l, p a = true → p b = true → le a b = true) :
    (l.mergeSort le).filter p = l.filter p := by
  rw [filter_mergeSort trans total]
  refine List.mergeSort_of_pairwise (List.pairwise_of_forall_mem_list fun a ha b hb => ?_)
  obtain ⟨hal, hpa⟩ := List.mem_filter.mp ha
  obtain ⟨hbl, hpb⟩ := List.mem_filter.mp hb
  exact h a hal b hbl hpa hpb

/-- The order within a sorted list can be replaced by one that agrees with it on the list. -/
theorem sort_eq_of_before {le : Diagnostic → Diagnostic → Bool} {ds : List Diagnostic}
    (h : ∀ a ∈ ds, ∀ b ∈ ds, before (groups ds) a b = le a b) : sort ds = ds.mergeSort le := by
  have hmap := List.map_mergeSort (f := fun d => d) h
  rwa [List.map_id', List.map_id'] at hmap

/-- The order by lines alone. -/
def byLine (a b : Diagnostic) : Bool := a.line ≤ b.line

/-- The findings are about one component and have one origin, and no difference of their lines
overflows. -/
structure Uniform (ds : List Diagnostic) : Prop where
  group : ∃ g, ∀ d ∈ ds, d.group = g
  line : ∀ d ∈ ds, 0 ≤ d.line ∧ d.line < 0x8000000000000000

theorem Uniform.filter {ds : List Diagnostic} (h : Uniform ds) (p : Diagnostic → Bool) :
    Uniform (ds.filter p) := by
  obtain ⟨g, hg⟩ := h.group
  exact ⟨⟨g, fun d hd => hg d (List.mem_filter.mp hd).1⟩,
    fun d hd => h.line d (List.mem_filter.mp hd).1⟩

theorem wrap64_of_small {n : Int} (hlow : -0x8000000000000000 ≤ n)
    (hhigh : n < 0x8000000000000000) : wrap64 n = n := by
  exact Int.bmod_eq_of_le (by omega) (by omega)

theorem Uniform.sort_eq {ds : List Diagnostic} (h : Uniform ds) :
    sort ds = ds.mergeSort byLine := by
  obtain ⟨g, hg⟩ := h.group
  refine sort_eq_of_before fun a ha b hb => ?_
  have hla := h.line a ha
  have hlb := h.line b hb
  have hwrap : wrap64 (a.line - b.line) = a.line - b.line :=
    wrap64_of_small (by omega) (by omega)
  simp only [before, byLine, hg a ha, hg b hb, hwrap, Nat.lt_irrefl, decide_false, Bool.false_or,
    beq_self_eq_true, Bool.true_and, decide_eq_decide]
  omega

/-- Leaving findings out of a uniform list commutes with sorting it. -/
theorem Uniform.sort_filter {ds : List Diagnostic} (h : Uniform ds) (p : Diagnostic → Bool) :
    sort (ds.filter p) = (sort ds).filter p := by
  have htrans : ∀ a b c : Diagnostic,
      byLine a b = true → byLine b c = true → byLine a c = true := by
    intro a b c hab hbc
    simp only [byLine, decide_eq_true_eq] at *
    omega
  have htotal : ∀ a b : Diagnostic, (byLine a b || byLine b a) = true := by
    intro a b
    simp only [byLine, Bool.or_eq_true, decide_eq_true_eq]
    omega
  rw [h.sort_eq, (h.filter p).sort_eq, filter_mergeSort htrans htotal]

end TwigLint.Diagnostic
