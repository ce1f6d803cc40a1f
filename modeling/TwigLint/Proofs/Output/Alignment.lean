import Mathlib.Data.List.Forall2
import TwigLint.Output.Table

/-! # Aligned lines

Aligning keeps every byte of a text of cells and lines except those that end a cell or a line: an
end of a cell becomes at least two blanks, and an end of a line a line feed.  Inside a passage the
ends stay as they are.
-/

namespace TwigLint.Table

/-! ## Lines of cells -/

/-- The cells in their order, with a gap behind each. -/
inductive Gapped (gap : Text → Prop) : Line → Text → Prop
  | nil : Gapped gap [] []
  | cons (c : Text) {g t : Text} {cells : Line} (hg : gap g) (h : Gapped gap cells t) :
    Gapped gap (c :: cells) (c ++ g ++ t)

/-- The cells of a line in their order, with a gap between neighbours. -/
def Spaced (gap : Text → Prop) (line : Line) (out : Text) : Prop :=
  ∃ cells cell front, line = cells ++ [cell] ∧ Gapped gap cells front ∧ out = front ++ cell

/-- Enough blanks between two columns. -/
def IsBlanks (t : Text) : Prop := ∃ n, padding ≤ n ∧ t = List.replicate n (' ' : UInt8)

theorem Gapped.concat_inv {gap : Text → Prop} {cells : Line} {c out : Text}
    (h : Gapped gap (cells ++ [c]) out) :
    ∃ front g, Gapped gap cells front ∧ gap g ∧ out = front ++ c ++ g := by
  induction cells generalizing out with
  | nil =>
    cases h with
    | cons _ hg h =>
      cases h
      exact ⟨[], _, .nil, hg, by simp⟩
  | cons d cells ih =>
    cases h with
    | cons _ hd h =>
      obtain ⟨front, g, hfront, hg, rfl⟩ := ih h
      exact ⟨_, g, .cons d hd hfront, hg, by simp⟩

theorem Spaced.concat_inv {gap : Text → Prop} {cells : Line} {cell out : Text}
    (h : Spaced gap (cells ++ [cell]) out) :
    ∃ front, Gapped gap cells front ∧ out = front ++ cell := by
  obtain ⟨cells', cell', front, hline, hfront, rfl⟩ := h
  obtain ⟨rfl, rfl⟩ := List.concat_inj.mp (by simpa using hline)
  exact ⟨front, hfront, rfl⟩

/-! ## Columns -/

theorem le_foldl_max {l : List Nat} {n m : Nat} (h : n ≤ m ∨ n ∈ l) : n ≤ l.foldl max m := by
  induction l generalizing m with
  | nil => simpa using h
  | cons k l ih =>
    refine ih ?_
    rcases h with h | h
    · exact .inl (Nat.le_trans h (Nat.le_max_left m k))
    · rcases List.mem_cons.mp h with rfl | h
      · exact .inl (Nat.le_max_right m n)
      · exact .inr h

theorem le_columnWidth {lines : List Line} {line : Line} (h : line ∈ lines) (column : Nat) :
    cellWidth (line.getD column []) + padding ≤ columnWidth column lines :=
  le_foldl_max (.inr (List.mem_map_of_mem h))

theorem flatMap_runs (p : Line → Bool) (lines : List Line) :
    (runs p lines).flatMap Prod.snd = lines := by
  induction lines with
  | nil => rfl
  | cons line lines ih =>
    rw [runs]
    split
    · next b run more hruns =>
      rw [hruns, List.flatMap_cons] at ih
      split <;> simp [← ih]
    · next hruns =>
      rw [hruns] at ih
      simp [← ih]

theorem of_mem_runs {p : Line → Bool} {lines : List Line} {b : Bool} {run : List Line}
    (h : (b, run) ∈ runs p lines) : ∀ line ∈ run, p line = b := by
  induction lines generalizing b run with
  | nil => cases h
  | cons line lines ih =>
    have hsingle : ∀ line' ∈ [line], p line' = p line := fun line' h => by
      rw [List.mem_singleton.mp h]
    rw [runs] at h
    split at h
    · next b' run' more hruns =>
      rw [hruns] at ih
      split at h
      · next hb =>
        rcases List.mem_cons.mp h with h | h
        · obtain ⟨rfl, rfl⟩ := Prod.mk.inj h
          exact List.forall_mem_cons.mpr ⟨(eq_of_beq hb).symm, ih (List.mem_cons_self ..)⟩
        · exact ih (List.mem_cons_of_mem _ h)
      · rcases List.mem_cons.mp h with h | h
        · obtain ⟨rfl, rfl⟩ := Prod.mk.inj h
          exact hsingle
        · exact ih h
    · obtain ⟨rfl, rfl⟩ := Prod.mk.inj (List.mem_singleton.mp h)
      exact hsingle

/-- The widths are enough for as many cells of the line, and it has a further cell. -/
def Fits (widths : List Nat) (line : Line) : Prop :=
  ∃ cells cell more, line = cells ++ cell :: more ∧
    List.Forall₂ (fun w c => cellWidth c + padding ≤ w) widths cells

theorem Fits.length_lt {widths : List Nat} {line : Line} (h : Fits widths line) :
    widths.length < line.length := by
  obtain ⟨cells, cell, more, rfl, hwidths⟩ := h
  simp [hwidths.length_eq]

theorem fits_nil {line : Line} (h : line ≠ []) : Fits [] line := by
  obtain ⟨cell, more, rfl⟩ := List.exists_cons_of_ne_nil h
  exact ⟨[], cell, more, rfl, .nil⟩

theorem Fits.concat {widths : List Nat} {line : Line} {w : Nat} (h : Fits widths line)
    (hcolumn : hasColumn widths.length line = true)
    (hw : cellWidth (line.getD widths.length []) + padding ≤ w) : Fits (widths ++ [w]) line := by
  obtain ⟨cells, cell, more, rfl, hwidths⟩ := h
  have hlength := hwidths.length_eq
  rw [hasColumn, decide_eq_true_eq, List.length_append, List.length_cons, hlength] at hcolumn
  obtain ⟨next, more, rfl⟩ := List.exists_cons_of_length_pos (l := more) (by omega)
  refine ⟨cells ++ [cell], next, more, by simp, List.rel_append hwidths (.cons ?_ .nil)⟩
  simpa [hlength] using hw

theorem gapped_padLine {widths : List Nat} {cells : Line} (cell : Text)
    (h : List.Forall₂ (fun w c => cellWidth c + padding ≤ w) widths cells) :
    ∃ front, Gapped IsBlanks cells front ∧ padLine widths (cells ++ [cell]) = front ++ cell := by
  induction h with
  | nil => exact ⟨[], .nil, by simp [padLine]⟩
  | @cons w c widths cells hw _ ih =>
    obtain ⟨front, hfront, hpad⟩ := ih
    refine ⟨_, .cons c ⟨w - cellWidth c, by omega, rfl⟩ hfront, ?_⟩
    rw [List.cons_append, padLine, hpad, List.append_assoc _ front]

theorem Fits.spaced {widths : List Nat} {line : Line} (h : Fits widths line)
    (hcolumn : hasColumn widths.length line = false) :
    Spaced IsBlanks line (padLine widths line) := by
  obtain ⟨cells, cell, more, rfl, hwidths⟩ := h
  have hlength := hwidths.length_eq
  rw [hasColumn, decide_eq_false_iff_not, List.length_append, List.length_cons, hlength] at hcolumn
  obtain rfl : more = [] := List.length_eq_zero_iff.mp (by omega)
  obtain ⟨front, hfront, hpad⟩ := gapped_padLine cell hwidths
  exact ⟨cells, cell, front, rfl, hfront, hpad⟩

theorem forall₂_flatMap {α β γ : Type} {R : β → γ → Prop} {f : α → List β} {g : α → List γ}
    {l : List α} (h : ∀ a ∈ l, List.Forall₂ R (f a) (g a)) :
    List.Forall₂ R (l.flatMap f) (l.flatMap g) := by
  induction l with
  | nil => exact .nil
  | cons a l ih =>
    obtain ⟨ha, hl⟩ := List.forall_mem_cons.mp h
    exact List.rel_append ha (ih hl)

theorem forall₂_concat_inv {α β : Type} {R : α → β → Prop} {l : List α} {a : α} {m : List β}
    (h : List.Forall₂ R (l ++ [a]) m) : ∃ m' b, m = m' ++ [b] ∧ List.Forall₂ R l m' ∧ R a b := by
  induction l generalizing m with
  | nil =>
    cases h with
    | cons hab h =>
      cases h
      exact ⟨[], _, rfl, .nil, hab⟩
  | cons c l ih =>
    cases h with
    | cons hc h =>
      obtain ⟨m', b, rfl, hm, hab⟩ := ih h
      exact ⟨_ :: m', b, rfl, .cons hc hm, hab⟩

/-- Every line comes out with its cells in their order. -/
theorem spaced_align {n : Nat} {widths : List Nat} {lines : List Line}
    (h : ∀ line ∈ lines, Fits widths line ∧ line.length ≤ widths.length + n) :
    List.Forall₂ (Spaced IsBlanks) lines (align n widths lines) := by
  induction n generalizing widths lines with
  | zero =>
    -- a line that fits has more cells than there are widths
    cases lines with
    | nil => exact .nil
    | cons line lines =>
      obtain ⟨hfits, hlength⟩ := h line (List.mem_cons_self ..)
      exact absurd hfits.length_lt (Nat.not_lt_of_le hlength)
  | succ n ih =>
    have hruns := flatMap_runs (hasColumn widths.length) lines
    rw [align]
    conv => arg 2; rw [← hruns]
    refine forall₂_flatMap fun ⟨has, run⟩ hrun => ?_
    have hrows : ∀ line ∈ run, Fits widths line ∧ line.length ≤ widths.length + (n + 1) :=
      fun line hline => h line (hruns ▸ List.mem_flatMap.mpr ⟨_, hrun, hline⟩)
    have hhas := of_mem_runs hrun
    cases has with
    | true =>
      refine ih fun line hline => ⟨?_, ?_⟩
      · exact (hrows line hline).1.concat (hhas line hline) (le_columnWidth hline _)
      · have hlength := (hrows line hline).2
        rw [List.length_append, List.length_singleton]
        omega
    | false =>
      refine List.forall₂_map_right_iff.mpr (List.forall₂_same.mpr fun line hline => ?_)
      exact (hrows line hline).1.spaced (hhas line hline)

theorem alignSection_eq {lines : List Line} (h : ∀ line ∈ lines, line ≠ []) :
    ∃ outs, List.Forall₂ (Spaced IsBlanks) lines outs ∧
      alignSection lines = outs.flatMap (· ++ [('\n' : UInt8)]) := by
  refine ⟨_, spaced_align fun line hline => ⟨fits_nil (h line hline), ?_⟩, rfl⟩
  rw [List.length_nil, Nat.zero_add]
  exact le_foldl_max (.inr (List.mem_map_of_mem hline))

/-! ## Texts of lines -/

/-- How a byte is shown, inside a passage or outside. -/
inductive ShownAs : Bool → UInt8 → Text → Prop
  | kept {escaped : Bool} {b : UInt8}
    (h : escaped = true ∨ endsCell b = false ∧ endsLine b = false) : ShownAs escaped b [b]
  | gap {b : UInt8} {t : Text} (h : endsCell b = true) (ht : IsBlanks t) : ShownAs false b t
  | lineBreak {b : UInt8} (h : endsLine b = true) : ShownAs false b [('\n' : UInt8)]

/-- How a text is shown byte by byte.  The first truth value is whether it begins inside a passage,
the second one whether it ends inside one. -/
inductive LaidOut : Bool → Text → Bool → Text → Prop
  | nil (escaped : Bool) : LaidOut escaped [] escaped []
  | cons {escaped ended : Bool} {b : UInt8} {t shown out : Text} (hb : ShownAs escaped b shown)
    (h : LaidOut (escaped != (b == escape)) t ended out) :
    LaidOut escaped (b :: t) ended (shown ++ out)

theorem LaidOut.append {e e' e'' : Bool} {s t out out' : Text} (h : LaidOut e s e' out)
    (h' : LaidOut e' t e'' out') : LaidOut e (s ++ t) e'' (out ++ out') := by
  induction h with
  | nil => exact h'
  | cons hb _ ih =>
    rw [List.append_assoc]
    exact .cons hb (ih h')

theorem LaidOut.append_inv {e e'' : Bool} {s t out : Text} (h : LaidOut e (s ++ t) e'' out) :
    ∃ e' front back, LaidOut e s e' front ∧ LaidOut e' t e'' back ∧ out = front ++ back := by
  induction s generalizing e out with
  | nil => exact ⟨e, [], out, .nil e, h, rfl⟩
  | cons b s ih =>
    cases h with
    | cons hb h =>
      obtain ⟨e', front, back, hfront, hback, rfl⟩ := ih h
      exact ⟨e', _, back, .cons hb hfront, hback, by simp⟩

theorem LaidOut.concat {e e' : Bool} {s out shown : Text} {b : UInt8} (h : LaidOut e s e' out)
    (hb : ShownAs e' b shown) : LaidOut e (s ++ [b]) (e' != (b == escape)) (out ++ shown) := by
  simpa using h.append (.cons hb (.nil _))

/-- The text that was read since the beginning of a section can be shown with the lines, the cells
of the last line and the beginning of its last cell that were read from it. -/
def HasRead (t : Text) (escaped : Bool) (cell : Text) (cells : Line) (lines : List Line) : Prop :=
  ∀ outs front, List.Forall₂ (Spaced IsBlanks) lines outs → Gapped IsBlanks cells front →
    LaidOut false t escaped (outs.flatMap (· ++ [('\n' : UInt8)]) ++ front ++ cell)

section HasRead

variable {t cell : Text} {cells : Line} {lines : List Line} {escaped : Bool} {b : UInt8}

theorem HasRead.keep (h : HasRead t escaped cell cells lines)
    (hb : escaped = true ∨ endsCell b = false ∧ endsLine b = false) :
    HasRead (t ++ [b]) (escaped != (b == escape)) (cell ++ [b]) cells lines :=
  fun outs front houts hfront => by
    simpa using (h outs front houts hfront).concat (.kept hb)

theorem ne_escape_of_ends (hb : endsCell b = true ∨ endsLine b = true) :
    (b == escape) = false := by
  rw [Bool.eq_false_iff]
  intro h
  rw [eq_of_beq h] at hb
  exact absurd hb (by decide)

theorem HasRead.endCell (h : HasRead t false cell cells lines) (hb : endsCell b = true) :
    HasRead (t ++ [b]) false [] (cells ++ [cell]) lines := by
  intro outs front houts hfront
  obtain ⟨before, g, hbefore, hg, rfl⟩ := hfront.concat_inv
  have hshown := (h outs before houts hbefore).concat (.gap hb hg)
  rw [ne_escape_of_ends (.inl hb)] at hshown
  simpa using hshown

theorem HasRead.ended (h : HasRead t escaped cell cells lines) {outs : List Text}
    (houts : List.Forall₂ (Spaced IsBlanks) (lines ++ [cells ++ [cell]]) outs)
    (hb : ShownAs escaped b [('\n' : UInt8)]) :
    LaidOut false (t ++ [b]) (escaped != (b == escape))
      (outs.flatMap (· ++ [('\n' : UInt8)])) := by
  obtain ⟨before, last, rfl, hbefore, hlast⟩ := forall₂_concat_inv houts
  obtain ⟨front, hfront, rfl⟩ := hlast.concat_inv
  simpa using (h before front hbefore hfront).concat hb

theorem HasRead.endLine (h : HasRead t false cell cells lines) (hb : endsLine b = true) :
    HasRead (t ++ [b]) false [] [] (lines ++ [cells ++ [cell]]) := by
  intro outs front houts hfront
  have hshown := h.ended houts (.lineBreak hb)
  cases hfront
  simpa [ne_escape_of_ends (.inr hb)] using hshown

end HasRead

theorem hasRead_nil : HasRead [] false [] [] [] := by
  intro outs front houts hfront
  cases houts
  cases hfront
  exact .nil false

/-- A line feed comes out as one, inside a passage or outside. -/
theorem shownAs_lineFeed (escaped : Bool) : ShownAs escaped '\n' [('\n' : UInt8)] := by
  cases escaped with
  | true => exact .kept (.inl rfl)
  | false => exact .lineBreak rfl

theorem ne_nil_of_mem_ended {cell : Text} {cells : Line} {lines : List Line}
    (h : ∀ line ∈ lines, line ≠ []) : ∀ line ∈ lines ++ [cells ++ [cell]], line ≠ [] := by
  simpa [or_imp, forall_and] using h

theorem HasRead.laidOut {t cell rest : Text} {cells : Line} {lines : List Line} {escaped : Bool}
    (h : HasRead t escaped cell cells lines) (hlines : ∀ line ∈ lines, line ≠ []) :
    ∃ ended, LaidOut false (t ++ rest ++ [('\n' : UInt8)]) ended
      ((sections escaped cell cells lines rest).flatMap alignSection) := by
  induction rest generalizing t escaped cell cells lines with
  | nil =>
    obtain ⟨outs, houts, halign⟩ := alignSection_eq (ne_nil_of_mem_ended hlines)
    have hsection := h.ended houts (shownAs_lineFeed escaped)
    rw [sections, List.flatMap_cons, List.flatMap_nil, List.append_nil, List.append_nil, halign]
    exact ⟨_, hsection⟩
  | cons b rest ih =>
    rw [List.append_cons t b rest, sections]
    split
    · next hb =>
      obtain ⟨rfl, hb⟩ : escaped = false ∧ endsCell b = true := by simpa using hb
      exact ih (h.endCell hb) hlines
    · next hcell =>
      split
      · next hb =>
        obtain ⟨rfl, hb⟩ : escaped = false ∧ endsLine b = true := by simpa using hb
        split
        · -- a form feed ends the section, and the rest is aligned on its own
          obtain ⟨outs, houts, halign⟩ := alignSection_eq (ne_nil_of_mem_ended hlines)
          obtain ⟨ended, hrest⟩ := ih hasRead_nil (List.forall_mem_nil _)
          have hsection := h.ended houts (.lineBreak hb)
          rw [ne_escape_of_ends (.inr hb)] at hsection
          refine ⟨ended, ?_⟩
          rw [List.flatMap_cons, halign, List.append_assoc]
          exact hsection.append hrest
        · exact ih (h.endLine hb) (ne_nil_of_mem_ended hlines)
      · next hline =>
        refine ih (h.keep ?_) hlines
        cases escaped with
        | true => exact .inl rfl
        | false => exact .inr ⟨by simpa using hcell, by simpa using hline⟩

/-- The aligned text is the text with its ends of cells and lines shown. -/
theorem laidOut_alignText (t : Text) :
    ∃ ended, LaidOut false (t ++ [('\n' : UInt8)]) ended (alignText t) :=
  hasRead_nil.laidOut (List.forall_mem_nil _)

end TwigLint.Table
