import TwigLint.Proofs.Lexing.Extent

/-! # Template data

The data of a template are its text runs and the bodies of its verbatim sections.  Every piece lies
between two markers, those of the delimiters next to it, and becomes a text token with the bytes
that are left of it when each marker has removed white space on its side.
-/

namespace TwigLint

namespace Trim

/-- The bytes that a marker removes. -/
def removed : Trim → Text
  | keep => []
  | all => [' ', '\t', '\n', '\r', 0, 11]
  | inline => [' ', '\t', 0, 11]

theorem drops_iff {m : Trim} {b : UInt8} : m.drops b = true ↔ b ∈ m.removed := by
  cases m <;> simp [drops, removed, or_assoc]

theorem drops_eq_false {m : Trim} {b : UInt8} : m.drops b = false ↔ b ∉ m.removed := by
  rw [← drops_iff, Bool.not_eq_true]

end Trim

namespace Lexing

open Segment

/-- A piece of template data and the markers that stand before and behind it. -/
structure Piece where
  before : Trim
  text : Text
  behind : Trim

/-- The data of some segments, in order.  A text run has the markers of the delimiters around it,
the body of a verbatim section those of its own tags. -/
def pieces (before : Trim) : List Segment → List Piece
  | [] => []
  | s :: rest =>
    (match s.shape with
      | .text => [⟨before, s.source, nextLead rest⟩]
      | .comment _ _ => []
      | .verbatim _ _ inner innerLead innerTrail _ => [⟨innerLead, inner, innerTrail⟩]
      | .tag _ _ _ => []) ++ pieces s.trail rest

namespace Piece

/-- What is left of a piece: everything between the longest run of bytes at its front that the
marker before it removes, and the longest such run at its end. -/
structure Leaves (p : Piece) (kept : Text) : Prop where
  parts : ∃ front back, p.text = front ++ kept ++ back ∧ (∀ b ∈ front, b ∈ p.before.removed) ∧
    ∀ b ∈ back, b ∈ p.behind.removed
  first : ∀ b ∈ kept.head?, b ∉ p.before.removed
  last : ∀ b ∈ kept.getLast?, b ∉ p.behind.removed

/-- The bytes of the text token that a piece becomes. -/
def kept (p : Piece) : Text := Text.trimRight p.behind.drops (p.text.dropWhile p.before.drops)

end Piece

/-- A text is cut on the right where everything behind is dropped and the byte before is not. -/
theorem trimRight_append {drop : UInt8 → Bool} {s t : Text} (ht : ∀ b ∈ t, drop b = true)
    (hs : ∀ b ∈ s.getLast?, drop b = false) : Text.trimRight drop (s ++ t) = s := by
  rw [Text.trimRight, List.reverse_append, dropWhile_run (by simpa using ht) (by simpa using hs),
    List.reverse_reverse]

namespace Piece

variable {p : Piece} {t : Text}

theorem Leaves.eq_kept (h : p.Leaves t) : t = p.kept := by
  obtain ⟨⟨front, back, htext, hfront, hback⟩, hfirst, hlast⟩ := h
  have hbehind : ∀ b ∈ back, p.behind.drops b = true := fun b hb => Trim.drops_iff.mpr (hback b hb)
  have hbefore : ∀ b ∈ front, p.before.drops b = true :=
    fun b hb => Trim.drops_iff.mpr (hfront b hb)
  rw [kept, htext, List.append_assoc]
  cases t with
  | nil =>
    -- Where the two runs meet, the marker before the piece may take bytes of the run behind.
    have hrest : ∀ b ∈ (front ++ back).dropWhile p.before.drops, p.behind.drops b = true := by
      rw [List.dropWhile_append_of_pos hbefore]
      exact fun b hb => hbehind b ((List.dropWhile_suffix _).mem hb)
    exact (trimRight_append (s := []) hrest (by simp)).symm
  | cons b t =>
    have hstop : ∀ c ∈ (b :: t ++ back).head?, p.before.drops c = false := by
      intro c hc
      exact Trim.drops_eq_false.mpr (hfirst c (by simpa using hc))
    rw [dropWhile_run hbefore hstop, trimRight_append hbehind]
    exact fun c hc => Trim.drops_eq_false.mpr (hlast c hc)

theorem leaves_kept (p : Piece) : p.Leaves p.kept := by
  have hcut := List.rdropWhile_append_rtakeWhile (p := p.behind.drops)
    (l := p.text.dropWhile p.before.drops)
  refine ⟨⟨p.text.takeWhile p.before.drops,
    (p.text.dropWhile p.before.drops).rtakeWhile p.behind.drops, ?_, ?_, ?_⟩, ?_, ?_⟩
  · rw [List.append_assoc]
    exact ((congrArg _ hcut).trans List.takeWhile_append_dropWhile).symm
  · exact fun b hb => Trim.drops_iff.mp (List.mem_takeWhile_imp hb)
  · exact fun b hb => Trim.drops_iff.mp (List.mem_rtakeWhile_imp hb)
  · intro b hb
    obtain ⟨k, hk⟩ := List.head?_eq_some_iff.mp hb
    have hstop := List.head?_dropWhile_not p.before.drops p.text
    rw [← hcut, show List.rdropWhile _ _ = b :: k from hk, List.cons_append,
      List.head?_cons] at hstop
    exact Trim.drops_eq_false.mp hstop
  · intro b hb
    obtain ⟨hne, rfl⟩ := List.mem_getLast?_eq_getLast hb
    exact fun hmem => List.rdropWhile_last_not _ _ hne (Trim.drops_iff.mpr hmem)

/-- What a piece leaves is determined, and it is what its token has. -/
theorem leaves_iff : p.Leaves t ↔ t = p.kept :=
  ⟨Leaves.eq_kept, fun h => h ▸ p.leaves_kept⟩

end Piece

/-! ## Tokens -/

/-- The values of the text tokens. -/
def textValues (ts : List Token) : List Text := (ts.filter (·.type == .text)).map (·.value)

theorem textValues_append (ts us : List Token) :
    textValues (ts ++ us) = textValues ts ++ textValues us := by
  simp [textValues]

theorem textValues_textToken (p : Piece) (start : Location) :
    textValues (textToken p.before p.behind start p.text) = [p.kept].filter (· ≠ []) := by
  have hkept : Text.trimRight p.behind.drops (p.text.dropWhile p.before.drops) = p.kept := rfl
  unfold textToken
  simp only [hkept]
  by_cases h : p.kept = [] <;> simp [textValues, h]

theorem textValues_delimited {kind : TagKind} {ts : List Token} (h : ts ∈ delimited kind) :
    textValues ts = [] := by
  obtain ⟨first, last, inside, hfirst, hinner, -, hlast, rfl⟩ := mem_delimited.mp h
  have hdelimiters : kind.startType ≠ .text ∧ kind.endType ≠ .text := by cases kind <;> decide
  have hinside : inside.filter (·.type == .text) = [] := by
    apply List.filter_eq_nil_iff.mpr
    intro t ht htext
    have htype := hinner t ht
    rw [eq_of_beq htext] at htype
    cases htype
  simp [textValues, hfirst, hlast, hdelimiters, hinside]

/-- The text tokens of some segments are what their data leave. -/
theorem textValues_tokens {t : Text} {segments : List Segment} (h : Consists t segments)
    (before : Trim) :
    textValues (Segment.tokens before segments) =
      ((pieces before segments).map Piece.kept).filter (· ≠ []) := by
  induction h generalizing before with
  | nil => rfl
  | @cons segment rest segments written behind ih =>
    rw [Segment.tokens, pieces, textValues_append, List.map_append, List.filter_append, ih]
    congr 1
    cases hshape : segment.shape with
    | text => exact textValues_textToken ⟨before, segment.source, nextLead segments⟩ segment.start
    | comment lead trail => rfl
    | verbatim lead start inner innerLead innerTrail trail =>
      exact textValues_textToken ⟨innerLead, inner, innerTrail⟩ start
    | tag lead tokens trail =>
      obtain ⟨kind, hmem⟩ := (hshape ▸ written).tokens_mem
      exact textValues_delimited hmem

/-- No template data are lost: a source consists of segments one behind another, and its text tokens
are what their data leave, in order, with nothing for a piece of which nothing is left. -/
theorem ofSource_keeps_data {source : Text} {s : TokenStream}
    (h : TokenStream.ofSource source = .ok s) :
    ∃ segments, Consists source.normalizeNewlines segments ∧
      segments.flatMap (·.source) = source.normalizeNewlines ∧
      ∃ kept, List.Forall₂ Piece.Leaves (pieces .keep segments) kept ∧
        textValues s.toList = kept.filter (· ≠ []) := by
  obtain ⟨segments, hcuts, rfl⟩ := cuts_of_ofSource h
  have hconsists := hcuts.consists
  refine ⟨segments, hconsists, hconsists.flatMap_source, (pieces .keep segments).map Piece.kept,
    ?_, ?_⟩
  · exact List.forall₂_map_right_iff.mpr (List.forall₂_same.mpr fun p _ => p.leaves_kept)
  · rw [TokenStream.toList, textValues_append, textValues_tokens hconsists]
    simp [textValues]

/-- Markers of a print statement, of a comment that is nothing but a marker, and of the two tags of
a verbatim section.  Nothing is left of the blank between the last two tags. -/
theorem ofSource_keeps_data_markers :
    ∃ s, TokenStream.ofSource ("a \r\n\x7b\x7b- x ~\x7d\x7d \nb\x7b#-#\x7d c" ++
        "\x7b% raw -%\x7d \x7b\x7b d \x7d\x7d \x7b%~ endraw %\x7d \x7b%- if x %\x7d") = .ok s ∧
      textValues s.toList = ["a", "\nb", "c", "\x7b\x7b d \x7d\x7d"] ∧
      ∃ segments kept, List.Forall₂ Piece.Leaves (pieces .keep segments) kept ∧
        textValues s.toList = kept.filter (· ≠ []) := by
  have hvalues : (TokenStream.ofSource ("a \r\n\x7b\x7b- x ~\x7d\x7d \nb\x7b#-#\x7d c" ++
      "\x7b% raw -%\x7d \x7b\x7b d \x7d\x7d \x7b%~ endraw %\x7d \x7b%- if x %\x7d")).toOption.map
        (fun s => textValues s.toList) =
      some (["a", "\nb", "c", "\x7b\x7b d \x7d\x7d"] : List Text) := by
    decide +kernel
  generalize h : TokenStream.ofSource _ = r at hvalues ⊢
  cases r with
  | error e => cases hvalues
  | ok s =>
    obtain ⟨segments, -, -, kept, hleaves, hkept⟩ := ofSource_keeps_data h
    exact ⟨s, rfl, Option.some.inj hvalues, segments, kept, hleaves, hkept⟩

end Lexing

end TwigLint
