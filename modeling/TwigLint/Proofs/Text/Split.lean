import TwigLint.Text.Basic
import Mathlib.Algebra.GroupWithZero.Nat
import Mathlib.Algebra.Order.BigOperators.Group.List
import Mathlib.Algebra.Order.Group.Nat
import Mathlib.Data.List.Basic

/-! # Splitting and joining texts

What splitting a text at a byte gives, part by part, how long joined texts are, and cutting a text
that ends in a known way.
-/

namespace TwigLint.Text

/-- Splitting a text is splitting the list of its bytes. -/
theorem splitOn_eq (sep : UInt8) (t : Text) : splitOn sep t = List.splitOn sep t := by
  induction t with
  | nil => rw [List.splitOn_nil, splitOn, splitBy]
  | cons b t ih =>
    have hne := List.splitOn_ne_nil sep t
    rw [List.splitOn_cons_eq_if_modifyHead, splitOn, splitBy]
    rw [splitOn] at ih
    cases hparts : List.splitOn sep t with
    | nil => exact absurd hparts hne
    | cons part parts => simp [ih, hparts]

theorem splitOn_cons (sep b : UInt8) (t : Text) : splitOn sep (b :: t) =
    if b = sep then [] :: splitOn sep t else (splitOn sep t).modifyHead (b :: ·) := by
  simp [splitOn_eq, List.splitOn_cons_eq_if_modifyHead]

theorem not_mem_of_mem_splitOn {sep : UInt8} {t part : Text} (h : part ∈ splitOn sep t) :
    sep ∉ part := by
  induction t generalizing part with
  | nil => simp_all [splitOn, splitBy]
  | cons b t ih =>
    have hne : splitOn sep t ≠ [] := splitOn_eq sep t ▸ List.splitOn_ne_nil sep t
    obtain ⟨first, parts, hparts⟩ := List.exists_cons_of_ne_nil hne
    rw [hparts] at ih
    rw [splitOn_cons, hparts] at h
    by_cases hb : b = sep
    · rw [if_pos hb, List.mem_cons] at h
      rcases h with rfl | h
      · exact List.not_mem_nil
      · exact ih h
    · rw [if_neg hb, List.modifyHead_cons, List.mem_cons] at h
      rcases h with rfl | h
      · simpa [Ne.symm hb] using ih (List.mem_cons_self ..)
      · exact ih (List.mem_cons_of_mem _ h)

theorem join_concat (sep : Text) (ts : List Text) (t : Text) :
    join sep (ts ++ [t]) = ts.flatMap (· ++ sep) ++ t := by
  induction ts with
  | nil => rfl
  | cons u ts ih =>
    have hne : ts ++ [t] ≠ [] := List.append_ne_nil_of_right_ne_nil ts (List.cons_ne_nil t [])
    rw [List.cons_append, join, ih]
    · simp
    · exact hne

theorem join_append (sep : Text) {ts : List Text} (h : ts ≠ []) :
    join sep ts ++ sep = ts.flatMap (· ++ sep) := by
  rw [← List.dropLast_append_getLast h, join_concat]
  simp

theorem mem_of_mem_join {sep : Text} {ts : List Text} {b : UInt8} (h : b ∈ join sep ts) :
    b ∈ sep ∨ ∃ t ∈ ts, b ∈ t := by
  by_cases hts : ts = []
  · simp [hts, join] at h
  · have hall : b ∈ ts.flatMap (· ++ sep) := by
      rw [← join_append sep hts]
      exact List.mem_append_left sep h
    obtain ⟨t, ht, hb⟩ := List.mem_flatMap.mp hall
    rcases List.mem_append.mp hb with hb | hb
    · exact .inr ⟨t, ht, hb⟩
    · exact .inl hb

/-! ## Lengths -/

theorem length_join (sep : Text) (ts : List Text) :
    (join sep ts).length = (ts.map List.length).sum + (ts.length - 1) * sep.length := by
  induction ts with
  | nil => simp [join]
  | cons t ts ih =>
    cases ts with
    | nil => simp [join]
    | cons u us =>
      have hjoin : join sep (t :: u :: us) = t ++ sep ++ join sep (u :: us) := rfl
      rw [hjoin, List.length_append, List.length_append, ih]
      simp [Nat.succ_mul]
      omega

theorem sum_length_le {ts us : List Text} (h : List.Sublist ts us) :
    (ts.map List.length).sum ≤ (us.map List.length).sum :=
  (h.map List.length).sum_le_sum fun _ _ => Nat.zero_le _

theorem length_join_le (sep : Text) {ts us : List Text} (h : List.Sublist ts us) :
    (join sep ts).length ≤ (join sep us).length := by
  rw [length_join, length_join]
  exact Nat.add_le_add (sum_length_le h)
    (Nat.mul_le_mul_right _ (Nat.sub_le_sub_right h.length_le 1))

theorem length_join_lt {sep : Text} (hsep : sep ≠ []) {ts us : List Text} (h : List.Sublist ts us)
    (hne : ts ≠ []) (hlt : ts.length < us.length) :
    (join sep ts).length < (join sep us).length := by
  have hts := List.length_pos_iff.mpr hne
  have hseps : (ts.length - 1) * sep.length < (us.length - 1) * sep.length :=
    Nat.mul_lt_mul_of_pos_right (by omega) (List.length_pos_iff.mpr hsep)
  rw [length_join, length_join]
  exact Nat.add_lt_add_of_le_of_lt (sum_length_le h) hseps

/-! ## Endings -/

theorem endsWith_iff {t p : Text} : t.endsWith p = true ↔ ∃ s, t = s ++ p := by
  rw [endsWith, List.isSuffixOf_iff_suffix]
  exact ⟨fun ⟨s, h⟩ => ⟨s, h.symm⟩, fun ⟨s, h⟩ => ⟨s, h.symm⟩⟩

@[simp] theorem endsWith_append (s p : Text) : (s ++ p).endsWith p = true :=
  endsWith_iff.mpr ⟨s, rfl⟩

@[simp] theorem dropSuffix_append (s p : Text) : (s ++ p).dropSuffix p = s := by
  simp [dropSuffix]

end TwigLint.Text
