import TwigLint.Component.Load

/-! # Readings that agree

A reading of a definition succeeds if it notes no wrong shape.  Of two readings that are put
together from parts in the same way, one succeeds where the other one does if their parts do.
-/

namespace TwigLint.Definition

open Yaml (Loops Decode)

variable {α β : Type}

/-- A wrong shape stays noted. -/
def Keeps (m : Shaped α) : Prop :=
  ∀ first a first', m.run (some first) = .ok (a, first') → first' ≠ none

/-- A reading gives a value and notes no wrong shape. -/
def Gives (m : Shaped α) (a : α) : Prop := m.run none = .ok (a, none)

theorem Keeps.bind {m : Shaped α} {f : α → Shaped β} (h : Keeps m) (hf : ∀ a, Keeps (f a)) :
    Keeps (m >>= f) := by
  intro first b first' hrun
  rw [StateT.run_bind] at hrun
  cases hm : m.run (some first) with
  | error e => rw [hm] at hrun; cases hrun
  | ok r =>
    obtain ⟨a, noted⟩ := r
    rw [hm] at hrun
    obtain ⟨shape, rfl⟩ := Option.ne_none_iff_exists'.mp (h _ _ _ hm)
    exact hf a _ _ _ hrun

theorem gives_bind {m : Shaped α} {f : α → Shaped β} (hf : ∀ a, Keeps (f a)) {b : β} :
    Gives (m >>= f) b ↔ ∃ a, Gives m a ∧ Gives (f a) b := by
  rw [Gives, StateT.run_bind]
  constructor
  · intro hrun
    cases hm : m.run none with
    | error e => rw [hm] at hrun; cases hrun
    | ok r =>
      obtain ⟨a, noted⟩ := r
      rw [hm] at hrun
      cases noted with
      | none => exact ⟨a, hm, hrun⟩
      | some shape => exact absurd rfl (hf a _ _ _ hrun)
  · rintro ⟨a, hm, hrun⟩
    rw [Gives] at hm
    rw [hm]
    exact hrun

section Decoded

variable {loops : Loops} {n : Yaml.Node} {what : Text} {empty : α}
  {read : Yaml.Node → Decode (Option α)}

theorem run_decoded {a? : Option α} (h : (read n).complete loops = .ok a?)
    (first : Option Misshape) :
    (decoded loops n what empty read).run first = .ok (a?.getD empty, first) := by
  rw [decoded, h]
  rfl

/-- A value that cannot be read is a wrong shape, unless the reading breaks off. -/
theorem noted_of_decoded {e : Yaml.Error} (h : (read n).complete loops = .error e)
    {first first' : Option Misshape} {a : α}
    (hrun : (decoded loops n what empty read).run first = .ok (a, first')) : first' ≠ none := by
  rw [decoded, h] at hrun
  cases hcrash : e.crash?.isSome with
  | true =>
    simp only [hcrash] at hrun
    cases hrun
  | false =>
    simp only [hcrash] at hrun
    cases hrun
    cases first <;> exact Option.some_ne_none _

theorem keeps_decoded : Keeps (decoded loops n what empty read) := by
  intro first a first' hrun
  cases hread : (read n).complete loops with
  | ok a? =>
    rw [run_decoded hread] at hrun
    cases hrun
    exact Option.some_ne_none _
  | error e => exact noted_of_decoded hread hrun

/-- The value of a node is read without a wrong shape if the node can be read. -/
theorem gives_decoded {a : α} : Gives (decoded loops n what empty read) a ↔
    ∃ a?, (read n).complete loops = .ok a? ∧ a?.getD empty = a := by
  cases hread : (read n).complete loops with
  | ok a? =>
    rw [Gives, run_decoded hread]
    simp
  | error e => exact ⟨fun hrun => absurd rfl (noted_of_decoded hread hrun), nofun⟩

end Decoded

/-- What the first reading gives, the second one gives too, and the other way round unless the
first one is excused. -/
structure Lifts (excused : Prop) (m m' : Shaped α) : Prop where
  keeps : Keeps m
  keeps' : Keeps m'
  forth : ∀ {a}, Gives m a → Gives m' a
  back : ∀ {a}, Gives m' a → Gives m a ∨ excused

namespace Lifts

variable {excused : Prop} {m m' : Shaped α}

theorem pure (a : α) : Lifts excused (pure a) (pure a) := by
  have hkeeps : Keeps (Pure.pure a : Shaped α) := by
    intro first a' first' hrun
    cases hrun
    exact Option.some_ne_none _
  exact ⟨hkeeps, hkeeps, fun h => h, .inl⟩

theorem pure_of_eq {a a' : α} (h : a = a') :
    Lifts excused (Pure.pure a : Shaped α) (Pure.pure a') := h ▸ pure a

theorem bind {f f' : α → Shaped β} (h : Lifts excused m m')
    (hf : ∀ a, Lifts excused (f a) (f' a)) : Lifts excused (m >>= f) (m' >>= f') := by
  have hkeeps := fun a => (hf a).keeps
  have hkeeps' := fun a => (hf a).keeps'
  refine ⟨h.keeps.bind hkeeps, h.keeps'.bind hkeeps', fun {b} hb => ?_, fun {b} hb => ?_⟩
  · obtain ⟨a, ha, hb⟩ := (gives_bind hkeeps).mp hb
    exact (gives_bind hkeeps').mpr ⟨a, h.forth ha, (hf a).forth hb⟩
  · obtain ⟨a, ha, hb⟩ := (gives_bind hkeeps').mp hb
    obtain ha | hexcused := h.back ha
    · obtain hb | hexcused := (hf a).back hb
      · exact .inl ((gives_bind hkeeps).mpr ⟨a, ha, hb⟩)
      · exact .inr hexcused
    · exact .inr hexcused

theorem complain (line line' : Nat) (cause cause' : LoadCause) :
    Lifts excused (complain line cause) (complain line' cause') := by
  have hkeeps : ∀ line cause, Keeps (Definition.complain line cause) := by
    intro line cause first a first' hrun
    cases hrun
    exact Option.some_ne_none _
  exact ⟨hkeeps _ _, hkeeps _ _, nofun, nofun⟩

theorem ite {c : Prop} [Decidable c] {l l' : Shaped α} (h : c → Lifts excused m m')
    (hnot : ¬c → Lifts excused l l') :
    Lifts excused (if c then m else l) (if c then m' else l') := by
  split
  · exact h ‹_›
  · exact hnot ‹_›

theorem foldlM {σ : Type} {f f' : σ → α → Shaped σ} {g : α → α} {l : List α}
    (h : ∀ a ∈ l, ∀ s, Lifts excused (f s a) (f' s (g a))) (s : σ) :
    Lifts excused (l.foldlM f s) ((l.map g).foldlM f' s) := by
  induction l generalizing s with
  | nil => exact pure s
  | cons a l ih =>
    obtain ⟨ha, hl⟩ := List.forall_mem_cons.mp h
    rw [List.map_cons, List.foldlM_cons, List.foldlM_cons]
    exact (ha s).bind (ih hl)

theorem decoded {loops loops' : Loops} {n n' : Yaml.Node} {what what' : Text} {empty : α}
    {read : Yaml.Node → Decode (Option α)}
    (h : (∀ a?, (read n).complete loops = .ok a? → (read n').complete loops' = .ok a?) ∧
      ∀ a?, (read n').complete loops' = .ok a? →
        (read n).complete loops = .ok a? ∨ (read n).complete loops = .error .tooManyAliases)
    (hrefused : (read n).complete loops = .error .tooManyAliases → excused) :
    Lifts excused (decoded loops n what empty read) (decoded loops' n' what' empty read) := by
  refine ⟨keeps_decoded, keeps_decoded, fun ha => ?_, fun ha => ?_⟩
  · obtain ⟨a?, hread, rfl⟩ := gives_decoded.mp ha
    exact gives_decoded.mpr ⟨a?, h.1 a? hread, rfl⟩
  · obtain ⟨a?, hread, rfl⟩ := gives_decoded.mp ha
    obtain hread | hmany := h.2 a? hread
    · exact .inl (gives_decoded.mpr ⟨a?, hread, rfl⟩)
    · exact .inr (hrefused hmany)

end Lifts

end TwigLint.Definition
