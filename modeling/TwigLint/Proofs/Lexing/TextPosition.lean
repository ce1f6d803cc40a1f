import TwigLint.Proofs.Lexing.SourceLine
import TwigLint.Proofs.Lexing.TextData

/-! # Positions of text tokens

A text token stands where its data begin, behind the bytes that a marker has removed there.  The
lexer counts the line ends among these bytes but not the columns, so that the line of a text token
is exact, and its column is that of the byte at which the data begin.
-/

namespace TwigLint

/-! ## Lines and columns of longer texts -/

/-- The last line of a text goes on in what follows up to the next line end. -/
theorem Text.lastLine_append (s t : Text) :
    lastLine (s ++ t) = if ('\n' : UInt8) ∈ t then lastLine t else lastLine s ++ t := by
  split
  · rename_i ht
    induction s with
    | nil => rfl
    | cons b s ih => rw [List.cons_append, lastLine_cons (by simp [ht]), ih]
  · rename_i ht
    have hstays : ∀ b ∈ t.reverse, staysOnLine b = true := by
      simpa using staysOnLine_of_not_mem ht
    rw [lastLine, List.rtakeWhile, List.reverse_append, List.takeWhile_append_of_pos hstays]
    simp [lastLine, List.rtakeWhile]

namespace Location

theorem eq_iff {l m : Location} : l = m ↔ l.line = m.line ∧ l.column = m.column := by
  cases l
  cases m
  exact mk.injEq ..  ▸ Iff.rfl

/-- The line behind two texts, the first of which starts a source. -/
theorem line_advance_append (s t : Text) :
    (start.advance (s ++ t)).line = (start.advance s).line + Text.countByte '\n' t := by
  rw [advance_start, advance_start]
  simp only [Text.countByte, List.count_append]
  omega

/-- The column is the same in front of a text and behind it exactly if the text is empty, or its
last line is as long as the line in front of it. -/
theorem column_advance_append (s t : Text) :
    (start.advance (s ++ t)).column = (start.advance s).column ↔
      t = [] ∨ ('\n' : UInt8) ∈ t ∧ (Text.lastLine t).length = (Text.lastLine s).length := by
  rw [advance_start, advance_start, Text.lastLine_append]
  split
  · rename_i ht
    have hne : t ≠ [] := List.ne_nil_of_mem ht
    simp only [ht, hne, false_or, true_and]
    omega
  · rename_i ht
    simp only [ht, false_and, or_false, List.length_append, ← List.length_eq_zero_iff]
    omega

end Location

namespace Lexing

open Segment

/-! ## Data in their places -/

/-- A piece of template data and all that stands in front of it in the template. -/
structure Datum where
  front : Text
  piece : Piece

namespace Datum

/-- Something of the datum is left. -/
def isKept (d : Datum) : Bool := !d.piece.kept.isEmpty

/-- The token has what is left of a datum that a text holds, and stands behind the bytes `cut` that
the marker in front has removed.  Its line is that of its first byte.  Its column is that of the
byte behind the front, which is the column of its first byte exactly if nothing has been removed, or
the last line of what has been removed is as long as the one at the end of the front. -/
structure Locates (t : Text) (d : Datum) (tok : Token) (cut : Text) : Prop where
  leaves : d.piece.Leaves tok.value
  removed : ∀ b ∈ cut, b ∈ d.piece.before.removed
  piece : ∃ back, d.piece.text = cut ++ tok.value ++ back
  place : ∃ behind, t = d.front ++ cut ++ tok.value ++ behind
  line : tok.location.line = (Location.ofOffset t (d.front ++ cut).length).line
  column : tok.location.column = (Location.ofOffset t d.front.length).column
  exact : tok.location = Location.ofOffset t (d.front ++ cut).length ↔
    cut = [] ∨ ('\n' : UInt8) ∈ cut ∧
      (Text.lastLine cut).length = (Text.lastLine d.front).length

end Datum

/-- The data of some segments behind a text, in order.  The body of a verbatim section stands behind
the tag that opens it. -/
inductive Holding : Text → Trim → List Segment → List Datum → Prop
  | nil {front : Text} {before : Trim} : Holding front before [] []
  | text {front : Text} {before : Trim} {s : Segment} {rest : List Segment} {ds : List Datum}
      (shape : s.shape = .text) (behind : Holding (front ++ s.source) s.trail rest ds) :
      Holding front before (s :: rest) (⟨front, before, s.source, nextLead rest⟩ :: ds)
  | verbatim {front : Text} {before : Trim} {s : Segment} {rest : List Segment} {ds : List Datum}
      {lead innerLead innerTrail trail : Trim} {start : Location} {opening inner closing : Text}
      (shape : s.shape = .verbatim lead start inner innerLead innerTrail trail)
      (opens : WordTag openingWords lead innerLead opening)
      (source : s.source = opening ++ (inner ++ closing))
      (behind : Holding (front ++ s.source) s.trail rest ds) :
      Holding front before (s :: rest) (⟨front ++ opening, innerLead, inner, innerTrail⟩ :: ds)
  | none {front : Text} {before : Trim} {s : Segment} {rest : List Segment} {ds : List Datum}
      (shape : (∃ lead trail, s.shape = .comment lead trail) ∨
        ∃ lead tokens trail, s.shape = .tag lead tokens trail)
      (behind : Holding (front ++ s.source) s.trail rest ds) :
      Holding front before (s :: rest) ds

/-! ## Tokens of data -/

/-- The tokens of some data: one for each of which something is left. -/
def Locating (all : Text) (ds : List Datum) (toks : List Token) : Prop :=
  List.Forall₂ (fun d tok => ∃ cut, d.Locates all tok cut) (ds.filter Datum.isKept)
    (toks.filter (·.type == .text))

section

variable {all : Text}

theorem Locating.append {ds es : List Datum} {toks toks' : List Token} (h : Locating all ds toks)
    (h' : Locating all es toks') : Locating all (ds ++ es) (toks ++ toks') := by
  rw [Locating, List.filter_append, List.filter_append]
  exact List.rel_append h h'

/-- A piece begins with what its marker removes, and goes on with what is left of it. -/
theorem Piece.text_eq (p : Piece) :
    ∃ back, p.text = p.text.takeWhile p.before.drops ++ p.kept ++ back := by
  refine ⟨(p.text.dropWhile p.before.drops).rtakeWhile p.behind.drops, ?_⟩
  have hcut := List.rdropWhile_append_rtakeWhile (p := p.behind.drops)
    (l := p.text.dropWhile p.before.drops)
  rw [List.append_assoc]
  exact List.takeWhile_append_dropWhile.symm.trans (congrArg _ hcut.symm)

/-- The token that the lexer makes of a datum.  It counts the line ends that the marker removes on
from the position behind the front. -/
theorem Datum.locates (d : Datum) {behind : Text} (hall : d.front ++ d.piece.text ++ behind = all) :
    let cut := d.piece.text.takeWhile d.piece.before.drops
    let start := Location.start.advance d.front
    d.Locates all ⟨.text, d.piece.kept, ⟨start.line + Text.countByte '\n' cut, start.column⟩⟩
      cut := by
  intro cut start
  obtain ⟨back, hback⟩ := d.piece.text_eq
  have hplace : all = d.front ++ cut ++ d.piece.kept ++ (back ++ behind) := by
    rw [← hall, hback]
    simp [cut]
  have hfront : Location.ofOffset all d.front.length = start := by
    rw [← hall, List.append_assoc]
    exact (Location.advance_eq_ofOffset ..).symm
  have hbehind : Location.ofOffset all (d.front ++ cut).length =
      Location.start.advance (d.front ++ cut) := by
    rw [hplace, List.append_assoc (d.front ++ cut), Location.advance_eq_ofOffset]
  have hline := Location.line_advance_append d.front cut
  refine ⟨d.piece.leaves_kept, fun b hb => Trim.drops_iff.mp (List.mem_takeWhile_imp hb),
    ⟨back, hback⟩, ⟨back ++ behind, hplace⟩, ?_, ?_, ?_⟩
  · rw [hbehind, hline]
  · rw [hfront]
  · rw [hbehind, Location.eq_iff, hline, ← Location.column_advance_append]
    exact ⟨fun h => h.2.symm, fun h => ⟨rfl, h.symm⟩⟩

theorem locating_textToken (d : Datum) {behind : Text}
    (hall : d.front ++ d.piece.text ++ behind = all) :
    Locating all [d] (textToken d.piece.before d.piece.behind (Location.start.advance d.front)
      d.piece.text) := by
  have hkept : Text.trimRight d.piece.behind.drops (d.piece.text.dropWhile d.piece.before.drops) =
      d.piece.kept := rfl
  unfold Locating textToken
  simp only [hkept]
  cases hempty : d.piece.kept.isEmpty with
  | true => simp [Datum.isKept, hempty]
  | false => simpa [Datum.isKept, hempty] using ⟨_, d.locates hall⟩

/-- The body of a verbatim section begins behind the tag that opens it. -/
theorem ReadsSegment.verbatim_first {start l : Location} {t inner : Text} {segment : Segment}
    {lead innerLead innerTrail trail : Trim} (h : ReadsSegment start t segment)
    (hshape : segment.shape = .verbatim lead l inner innerLead innerTrail trail) :
    ∃ opening closing, WordTag openingWords lead innerLead opening ∧
      segment.source = opening ++ (inner ++ closing) ∧ l = start.advance opening := by
  cases h with
  | verbatim hopen hbody hopening =>
    cases hshape
    obtain ⟨closing, hopens, -, htake, -, -⟩ := verbatim_parts hopen hbody
    subst hopening
    exact ⟨_, closing, hopens, by rw [htake], rfl⟩
  | text | comment | tag => cases hshape

/-- The text tokens of the segments of a text are those of their data. -/
theorem Cuts.locating {start : Location} {t : Text} {segments : List Segment}
    (h : Cuts start t segments) {pre : Text} (hall : pre ++ t = all)
    (hstart : start = Location.start.advance pre) (before : Trim) :
    ∃ ds, Holding pre before segments ds ∧
      Locating all ds (Segment.tokens before segments) := by
  induction h generalizing pre before with
  | nil => exact ⟨[], .nil, .nil⟩
  | @cons _ behind segment rest first _ ih =>
    subst hstart
    rw [← List.append_assoc] at hall
    obtain ⟨ds, hholding, hlocating⟩ := ih hall (Location.advance_advance ..) segment.trail
    rw [Segment.tokens]
    cases hshape : segment.shape with
    | text =>
      let d : Datum := ⟨pre, before, segment.source, nextLead rest⟩
      have hd := locating_textToken d hall
      rw [← first.start_eq] at hd
      exact ⟨d :: ds, .text hshape hholding, hd.append hlocating⟩
    | comment lead trail => exact ⟨ds, .none (.inl ⟨_, _, hshape⟩) hholding, hlocating⟩
    | verbatim lead l inner innerLead innerTrail trail =>
      obtain ⟨opening, closing, hopening, hsource, rfl⟩ := first.verbatim_first hshape
      let d : Datum := ⟨pre ++ opening, innerLead, inner, innerTrail⟩
      have hdata : d.front ++ d.piece.text ++ (closing ++ behind) = all := by
        rw [← hall, hsource]
        simp [d]
      have hd := locating_textToken d hdata
      rw [← Location.advance_advance] at hd
      exact ⟨d :: ds, .verbatim hshape hopening hsource hholding, hd.append hlocating⟩
    | tag lead toks trail =>
      obtain ⟨kind, hmem⟩ := first.shaped lead toks trail hshape
      have hnone : Locating all [] toks := by
        rw [Locating, List.map_eq_nil_iff.mp (textValues_delimited hmem)]
        exact .nil
      exact ⟨ds, .none (.inr ⟨_, _, _, hshape⟩) hholding, hnone.append hlocating⟩

end

/-- The text tokens of a template are those of its data, in order.  Each has the line of its first
byte, and the column of the byte at which its data begin. -/
theorem ofSource_text_positions {source : Text} {s : TokenStream}
    (h : TokenStream.ofSource source = .ok s) :
    ∃ segments ds, Consists source.normalizeNewlines segments ∧ Holding [] .keep segments ds ∧
      List.Forall₂ (fun d tok => ∃ cut, d.Locates source.normalizeNewlines tok cut)
        (ds.filter Datum.isKept) (s.toList.filter (·.type == .text)) := by
  obtain ⟨segments, hcuts, rfl⟩ := cuts_of_ofSource h
  obtain ⟨ds, hholding, hlocating⟩ := hcuts.locating (List.nil_append _) rfl .keep
  refine ⟨segments, ds, hcuts.consists, hholding, ?_⟩
  have heof : ∀ l : Location, [Token.mk .eof [] l].filter (·.type == .text) = [] := fun _ => rfl
  rw [TokenStream.toList, List.filter_append, heof, List.append_nil]
  exact hlocating

/-- A line end and eight blanks are removed behind a print statement of eight bytes. -/
theorem ofSource_text_positions_aligned :
    let source : Text := "\x7b\x7b a -\x7d\x7d\n        b"
    ∃ s tok, ∃ (d : Datum) (cut : Text), TokenStream.ofSource source = .ok s ∧
      s.toList.filter (·.type == .text) = [tok] ∧ tok = ⟨.text, "b", ⟨2, 9⟩⟩ ∧
        d.Locates source.normalizeNewlines tok cut := by
  intro source
  have hok : (TokenStream.ofSource source).toOption.map
      (fun s => s.toList.filter (·.type == .text)) = some [⟨.text, "b", ⟨2, 9⟩⟩] := by
    decide +kernel
  obtain ⟨s, h, htokens⟩ := ok_of_toOption_map hok
  obtain ⟨segments, ds, -, -, hall⟩ := ofSource_text_positions h
  rw [htokens] at hall
  obtain ⟨d, -, ⟨cut, hlocates⟩, -, -⟩ := List.forall₂_cons_right_iff.mp hall
  exact ⟨s, _, d, cut, h, htokens, rfl, hlocates⟩

/-- Where a marker has removed a blank, the position is that of no place of the text. -/
theorem ofSource_text_positions_column :
    let source : Text := "\x7b\x7b a -\x7d\x7d b"
    ∃ s, TokenStream.ofSource source = .ok s ∧ ∃ tok ∈ s.toList, tok.type = .text ∧
      ∀ before behind, source.normalizeNewlines = before ++ tok.value ++ behind →
        tok.location ≠ Location.ofOffset source.normalizeNewlines before.length := by
  intro source
  have hok : (TokenStream.ofSource source).toOption.map
      (·.toList.contains ⟨.text, "b", ⟨1, 9⟩⟩) = some true := by
    decide +kernel
  have hplaces : ∀ o < source.normalizeNewlines.length,
      source.normalizeNewlines[o]? = some 'b' →
        Location.mk 1 9 ≠ Location.ofOffset source.normalizeNewlines o := by
    decide +kernel
  obtain ⟨s, h, htok⟩ := ok_of_toOption_map hok
  refine ⟨s, h, _, List.contains_iff_mem.mp htok, rfl, fun before behind hplace => ?_⟩
  have hb : Text.ofString "b" = ['b'] := rfl
  apply hplaces
  · simp [hplace, hb]
  · simp [hplace, hb]

end Lexing

end TwigLint
