import TwigLint.Text.Basic
import Mathlib.Data.List.Basic

/-! # The order of texts

Texts are compared byte by byte, as lists of bytes are.  Sorted texts are in this order.
-/

namespace TwigLint.Text

theorem le_iff {s t : Text} : le s t = true ↔ s ≤ t := by
  induction s generalizing t with
  | nil => simp [le]
  | cons a s ih =>
    cases t with
    | nil => simp [le]
    | cons b t => simp [le, List.cons_le_cons_iff, ih]

theorem mem_sort {t : Text} {ts : List Text} : t ∈ sort ts ↔ t ∈ ts := List.mem_mergeSort

theorem sort_eq_nil {ts : List Text} : sort ts = [] ↔ ts = [] := by
  rw [← List.length_eq_zero_iff, sort, List.length_mergeSort, List.length_eq_zero_iff]

theorem pairwise_sort (ts : List Text) : (sort ts).Pairwise (· ≤ ·) := by
  have htrans (s t u : Text) (hst : le s t = true) (htu : le t u = true) : le s u = true :=
    le_iff.mpr (List.le_trans (le_iff.mp hst) (le_iff.mp htu))
  have htotal (s t : Text) : (le s t || le t s) = true := by
    rw [Bool.or_eq_true, le_iff, le_iff]
    exact List.le_total s t
  exact (List.pairwise_mergeSort htrans htotal ts).imp le_iff.mp

/-- Texts are sorted in one way, whatever their order was. -/
theorem sort_eq_of_perm {ts us : List Text} (h : List.Perm ts us) : sort ts = sort us := by
  have hsorted : List.Perm (sort ts) (sort us) :=
    (List.mergeSort_perm ts le).trans (h.trans (List.mergeSort_perm us le).symm)
  exact hsorted.eq_of_pairwise (fun _ _ _ _ => List.le_antisymm) (pairwise_sort ts)
    (pairwise_sort us)

end TwigLint.Text
