import TwigLint.Proofs.Lexing.Cut

/-! # Positions of tokens

Lexemes and segments are read from the front of the source, so that positions advance over the
source as it is used up.  Every token of a template is therefore on one of its lines.
-/

namespace TwigLint

/-! ## Lines -/

namespace Location

theorem line_advance (l : Location) (t : Text) :
    (l.advance t).line = l.line + Text.countByte '\n' t := by
  induction t generalizing l with
  | nil => simp [advance, Text.countByte]
  | cons b t ih =>
    have hstep : (l.step b).line = l.line + if b == '\n' then 1 else 0 := by
      unfold step
      split <;> simp
    have hcount := List.count_cons (a := ('\n' : UInt8)) (b := b) (l := t)
    change ((l.step b).advance t).line = _
    rw [ih, hstep, Text.countByte, Text.countByte, hcount]
    split <;> push_cast <;> omega

/-- A text at the position `l` has the line of the position `m`. -/
def Covers (l : Location) (t : Text) (m : Location) : Prop :=
  l.line ≤ m.line ∧ m.line ≤ l.line + Text.countByte '\n' t

variable {l m : Location} {s t : Text}

theorem covers_start (l : Location) (t : Text) : l.Covers t l := by
  unfold Covers
  omega

theorem Covers.mono (h : l.Covers s m) (hst : List.Sublist s t) : l.Covers t m := by
  have hcount : Text.countByte '\n' s ≤ Text.countByte '\n' t := hst.count_le _
  unfold Covers at *
  omega

theorem Covers.behind (h : (l.advance s).Covers t m) : l.Covers (s ++ t) m := by
  have hcount : Text.countByte '\n' (s ++ t) = Text.countByte '\n' s + Text.countByte '\n' t :=
    List.count_append
  unfold Covers at *
  rw [line_advance] at h
  omega

end Location

namespace Lexing

open Segment

/-! ## Tags -/

/-- The tokens that are read of a tag are on its lines. -/
theorem ReadsTag.covers {kind : TagKind} {stack : List OpenBracket} {loc : Location} {t : Text}
    {r : TagRest} (h : ReadsTag kind stack loc t r) :
    ∀ tok ∈ r.tokens, loc.Covers t tok.location := by
  induction h with
  | @blank _ loc b t _ _ _ ih =>
    intro tok htok
    have hstep : (loc.advance [b]).Covers t tok.location := ih tok htok
    exact hstep.behind
  | close => exact List.forall_mem_singleton.mpr (Location.covers_start _ _)
  | lexeme text _ _ _ _ ih =>
    refine List.forall_mem_cons.mpr ⟨Location.covers_start _ _, fun tok htok => ?_⟩
    rw [text]
    exact (ih tok htok).behind

/-! ## Segments -/

/-- A segment is read from the front of a text, and what it holds is on the lines of the text. -/
structure Fits (start : Location) (t : Text) (segment : Segment) : Prop where
  start_eq : segment.start = start
  source : segment.source <+: t
  tokens : ∀ lead tokens trail, segment.shape = .tag lead tokens trail →
    ∀ tok ∈ tokens, start.Covers t tok.location
  inner : ∀ lead l inner innerLead innerTrail trail,
    segment.shape = .verbatim lead l inner innerLead innerTrail trail →
      ∀ m, l.Covers inner m → start.Covers t m

theorem ReadsSegment.fits {start : Location} {t : Text} {segment : Segment}
    (h : ReadsSegment start t segment) : Fits start t segment := by
  refine ⟨h.start_eq, h.source_isPrefix, ?_, ?_⟩
  · intro lead tokens trail hshape
    cases h with
    | @tag kind body _ _ _ hopening hrest =>
      cases hshape
      have hcovers := hrest.covers
      rw [hopening] at hcovers
      rw [← opening_append kind (Trim.ofHead body).width]
      exact List.forall_mem_cons.mpr
        ⟨Location.covers_start _ _, fun tok htok => (hcovers tok htok).behind⟩
    | text | comment | verbatim => cases hshape
  · intro lead l inner innerLead innerTrail trail hshape m hm
    cases h with
    | verbatim hopen hbody hopening =>
      cases hshape
      rw [hopening] at hm
      rw [← append_of_verbatimOpen? hopen]
      exact (hm.mono (verbatimBody?_isPrefix hbody).sublist).behind
    | text | comment | tag => cases hshape

/-! ## Whole templates -/

theorem textToken_covers {before behind : Trim} {start : Location} {t : Text} {tok : Token}
    (h : tok ∈ textToken before behind start t) : start.Covers t tok.location := by
  revert h
  fun_cases textToken before behind start t with
  | case1 => simp
  | case2 cut line kept hkept =>
    intro h
    obtain rfl := List.mem_singleton.mp h
    have hcount : Text.countByte '\n' (t.takeWhile before.drops) ≤ Text.countByte '\n' t :=
      (List.takeWhile_prefix _).sublist.count_le _
    simp only [Location.Covers, line]
    omega

/-- The tokens of the segments of a text are on its lines. -/
theorem Cuts.covers {start : Location} {t : Text} {segments : List Segment}
    (h : Cuts start t segments) (before : Trim) :
    ∀ tok ∈ Segment.tokens before segments, start.Covers t tok.location := by
  induction h generalizing before with
  | nil => simp [Segment.tokens]
  | @cons start _ segment _ first _ ih =>
    have hfits := first.fits
    intro tok htok
    rw [Segment.tokens] at htok
    rcases List.mem_append.mp htok with htok | htok
    · cases hshape : segment.shape with
      | text =>
        rw [hshape, hfits.start_eq] at htok
        exact (textToken_covers htok).mono hfits.source.sublist
      | comment lead trail =>
        rw [hshape] at htok
        cases htok
      | verbatim lead l inner innerLead innerTrail trail =>
        rw [hshape] at htok
        exact hfits.inner lead l inner innerLead innerTrail trail hshape _ (textToken_covers htok)
      | tag lead tokens trail =>
        rw [hshape] at htok
        exact hfits.tokens lead tokens trail hshape tok htok
    · exact (ih segment.trail tok htok).behind

theorem length_normalizeNewlines_le (t : Text) : t.normalizeNewlines.length ≤ t.length := by
  fun_induction Text.normalizeNewlines t with
  | case1 => exact Nat.le_refl _
  | case2 => exact Nat.le_refl _
  | case3 b c t hline ih => simpa using Nat.le_succ_of_le ih
  | case4 b c t hline ih => simpa using ih

/-- The tokens of a template, the end token too, are on the lines of its source, of which there is
at most one more than bytes. -/
theorem ofSource_lines {source : Text} {s : TokenStream}
    (h : TokenStream.ofSource source = .ok s) {tok : Token} (htok : tok ∈ s.toList) :
    1 ≤ tok.location.line ∧ tok.location.line ≤ source.length + 1 := by
  obtain ⟨segments, hcuts, rfl⟩ := cuts_of_ofSource h
  have hcovers : Location.start.Covers source.normalizeNewlines tok.location := by
    rcases List.mem_append.mp htok with htok | htok
    · exact hcuts.covers .keep tok htok
    · obtain rfl := List.mem_singleton.mp htok
      have hend := Location.start.advance source.normalizeNewlines |>.covers_start []
      simpa using hend.behind
  have hcount : Text.countByte '\n' source.normalizeNewlines ≤ source.length :=
    List.count_le_length.trans (length_normalizeNewlines_le source)
  have hstart : Location.start.line = 1 := rfl
  unfold Location.Covers at hcovers
  omega

end Lexing

end TwigLint
