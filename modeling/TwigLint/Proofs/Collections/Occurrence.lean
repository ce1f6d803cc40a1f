import Mathlib.Data.List.Induction
import Mathlib.Data.List.Nodup

/-! # First occurrences

What is left of a list when every entry is dropped that is like one before it, and where the entries
that are left stand.
-/

namespace TwigLint

/-! ## Entries like none before them -/

/-- The entries of a list that are like none before them, in their order. -/
def firsts {α : Type} (same : α → α → Bool) (l : List α) : List α :=
  (l.zipIdx.filter fun entry => (l.take entry.2).all fun a => !same a entry.1).map Prod.fst

section Firsts

variable {α : Type} (same : α → α → Bool)

@[simp] theorem firsts_nil : firsts same [] = [] := rfl

theorem firsts_singleton (a : α) : firsts same [a] = [a] := rfl

theorem firsts_append (l m : List α) :
    firsts same (l ++ m) =
      firsts same l ++ (firsts same m).filter fun b => l.all fun a => !same a b := by
  have hfront : l.zipIdx.filter (fun entry => ((l ++ m).take entry.2).all fun a =>
      !same a entry.1) = l.zipIdx.filter fun entry => (l.take entry.2).all fun a =>
        !same a entry.1 := by
    refine List.filter_congr fun entry hentry => ?_
    have hinside : entry.2 < 0 + l.length := (List.mem_zipIdx hentry).2.1
    rw [List.take_append_of_le_length (by omega)]
  have hback : m.zipIdx (0 + l.length) =
      m.zipIdx.map fun entry => (entry.1, l.length + entry.2) := by
    rw [List.zipIdx_eq_map_add]
    simp [Nat.add_comm]
  simp only [firsts]
  rw [List.zipIdx_append, List.filter_append, List.map_append, hfront, hback, List.filter_map,
    List.filter_map, List.filter_filter, List.map_map]
  congr 2
  refine List.filter_congr fun entry _ => ?_
  simp [List.take_length_add_append]

theorem firsts_cons (a : α) (l : List α) :
    firsts same (a :: l) = a :: (firsts same l).filter fun b => !same a b := by
  have happend := firsts_append same [a] l
  simpa [firsts_singleton] using happend

theorem firsts_concat (l : List α) (a : α) :
    firsts same (l ++ [a]) = firsts same l ++ if l.any (same · a) then [] else [a] := by
  rw [firsts_append, firsts_singleton, List.filter_singleton, ← List.not_any_eq_all_not]
  cases l.any (same · a) <;> rfl

theorem firsts_sublist (l : List α) : List.Sublist (firsts same l) l := by
  induction l with
  | nil => exact List.Sublist.refl _
  | cons a l ih =>
    rw [firsts_cons]
    exact (List.filter_sublist.trans ih).cons_cons a

/-- No two entries are left that are like each other. -/
theorem pairwise_firsts (l : List α) : (firsts same l).Pairwise fun a b => same a b = false := by
  induction l with
  | nil => exact List.Pairwise.nil
  | cons a l ih =>
    rw [firsts_cons, List.pairwise_cons]
    refine ⟨fun b hb => ?_, ih.sublist List.filter_sublist⟩
    simpa using (List.mem_filter.mp hb).2

/-- Nothing is dropped from a list without repetitions. -/
theorem firsts_of_pairwise {l : List α} (h : l.Pairwise fun a b => same a b = false) :
    firsts same l = l := by
  induction l with
  | nil => rfl
  | cons a l ih =>
    obtain ⟨ha, hl⟩ := List.pairwise_cons.mp h
    rw [firsts_cons, ih hl, List.filter_eq_self.mpr fun b hb => by simp [ha b hb]]

theorem firsts_firsts (l : List α) : firsts same (firsts same l) = firsts same l :=
  firsts_of_pairwise same (pairwise_firsts same l)

/-- Leaving entries out commutes with dropping repetitions when these are left out together. -/
theorem firsts_filter {p : α → Bool} {l : List α}
    (h : ∀ a ∈ l, ∀ b ∈ l, same a b = true → p a = p b) :
    firsts same (l.filter p) = (firsts same l).filter p := by
  induction l with
  | nil => rfl
  | cons a l ih =>
    have ih := ih fun b hb c hc => h b (List.mem_cons_of_mem _ hb) c (List.mem_cons_of_mem _ hc)
    rw [firsts_cons, List.filter_cons, List.filter_cons, List.filter_comm]
    by_cases ha : p a
    · rw [if_pos ha, if_pos ha, firsts_cons, ih]
    · rw [if_neg ha, if_neg ha, ih]
      -- nothing that is kept is like what is left out
      refine (List.filter_eq_self.mpr fun b hb => ?_).symm
      obtain ⟨hmem, hp⟩ := List.mem_filter.mp hb
      rw [Bool.not_eq_true', Bool.eq_false_iff]
      intro hsame
      have heq := h a (List.mem_cons_self ..) b
        (List.mem_cons_of_mem _ ((firsts_sublist same l).subset hmem)) hsame
      exact ha (heq ▸ hp)

theorem firsts_congr {same same' : α → α → Bool} {l : List α}
    (h : ∀ a ∈ l, ∀ b ∈ l, same a b = same' a b) : firsts same l = firsts same' l := by
  induction l with
  | nil => rfl
  | cons a l ih =>
    rw [firsts_cons, firsts_cons, ih fun b hb c hc =>
      h b (List.mem_cons_of_mem _ hb) c (List.mem_cons_of_mem _ hc)]
    congr 1
    refine List.filter_congr fun b hb => ?_
    rw [h a (List.mem_cons_self ..) b (List.mem_cons_of_mem _ ((firsts_sublist same' l).subset hb))]

end Firsts

/-! ## Different entries -/

section Different

variable {α : Type} [BEq α] [LawfulBEq α]

theorem eraseDups_eq_firsts (l : List α) : l.eraseDups = firsts (· == ·) l := by
  induction l using List.reverseRecOn with
  | nil => rfl
  | append_singleton l a ih =>
    rw [List.eraseDups_append, firsts_concat, ih]
    congr 1
    by_cases h : a ∈ l
    · simp [List.removeAll, h]
    · simp [List.removeAll, h, List.eraseDups_cons]

theorem eraseDups_concat (l : List α) (a : α) :
    (l ++ [a]).eraseDups = l.eraseDups ++ if l.contains a then [] else [a] := by
  rw [eraseDups_eq_firsts, eraseDups_eq_firsts, firsts_concat, List.any_beq']

/-- The keys of the entries whose key is new are the different keys. -/
theorem map_firsts {β : Type} (f : β → α) (l : List β) :
    (firsts (fun a b => f a == f b) l).map f = (l.map f).eraseDups := by
  rw [eraseDups_eq_firsts]
  induction l with
  | nil => rfl
  | cons a l ih =>
    rw [firsts_cons, List.map_cons, List.map_cons, firsts_cons, ← ih, List.filter_map]
    rfl

theorem nodup_eraseDups (l : List α) : l.eraseDups.Nodup := by
  rw [eraseDups_eq_firsts]
  exact (pairwise_firsts _ l).imp fun h => ne_of_beq_false h

/-- Of two entries, the same one comes first with and without repetitions. -/
theorem idxOf_eraseDups_lt_iff {l : List α} {a b : α} (ha : a ∈ l) (hb : b ∈ l) :
    l.eraseDups.idxOf a < l.eraseDups.idxOf b ↔ l.idxOf a < l.idxOf b := by
  induction l using List.reverseRecOn with
  | nil => cases ha
  | append_singleton l c ih =>
    rw [eraseDups_concat]
    have hbefore {a b : α} (ha : a ∈ l) (hb : b ∉ l) :
        (l.eraseDups ++ if l.contains c then [] else [c]).idxOf a <
            (l.eraseDups ++ if l.contains c then [] else [c]).idxOf b ∧
          (l ++ [c]).idxOf a < (l ++ [c]).idxOf b := by
      have ha' : a ∈ l.eraseDups := List.mem_eraseDups.mpr ha
      have hb' : b ∉ l.eraseDups := fun h => hb (List.mem_eraseDups.mp h)
      rw [List.idxOf_append_of_mem ha, List.idxOf_append_of_mem ha',
        List.idxOf_append_of_notMem hb, List.idxOf_append_of_notMem hb']
      have hlt := List.idxOf_lt_length_of_mem ha
      have hlt' := List.idxOf_lt_length_of_mem ha'
      omega
    by_cases hal : a ∈ l
    · by_cases hbl : b ∈ l
      · rw [List.idxOf_append_of_mem (List.mem_eraseDups.mpr hal),
          List.idxOf_append_of_mem (List.mem_eraseDups.mpr hbl), List.idxOf_append_of_mem hal,
          List.idxOf_append_of_mem hbl, ih hal hbl]
      · exact iff_of_true (hbefore hal hbl).1 (hbefore hal hbl).2
    · by_cases hbl : b ∈ l
      · exact iff_of_false (Nat.lt_asymm (hbefore hbl hal).1) (Nat.lt_asymm (hbefore hbl hal).2)
      · have hac : a = c := by simpa [hal] using ha
        have hbc : b = c := by simpa [hbl] using hb
        simp [hac, hbc]

/-- The entries of a list without repetitions stand at increasing places. -/
theorem pairwise_idxOf {l : List α} (h : l.Nodup) :
    l.Pairwise fun a b => l.idxOf a < l.idxOf b := by
  rw [List.pairwise_iff_getElem]
  intro i j hi hj hij
  rwa [h.idxOf_getElem, h.idxOf_getElem]

end Different

end TwigLint
