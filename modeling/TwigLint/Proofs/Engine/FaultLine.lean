import TwigLint.Proofs.Engine.Critical
import TwigLint.Proofs.Grammar.Progress
import TwigLint.Proofs.Lexing.FaultPosition
import TwigLint.Proofs.Lexing.SourceLine

/-! # The line of a syntax error

A syntax error is at a position of the source: on one of its lines, at a byte of the line or behind
the last one.  So the critical finding about a template that does not parse shows lines of the
source, the line of the error first.
-/

namespace TwigLint

open Lexing

/-! ## Positions -/

/-- Whatever is wrong with a template, the error is at a position of the source. -/
theorem onText_of_parseTemplate {limit : Nat} {source : Text} {e : SyntaxError}
    (h : parseTemplate limit source = .error e) : OnText source.normalizeNewlines e.location := by
  cases hstream : TokenStream.ofSource source with
  | error e' =>
    rw [parseTemplate_error hstream] at h
    cases h
    exact onText_ofSource hstream
  | ok stream =>
    rw [parseTemplate_eq hstream] at h
    cases hrun : (Parser.template limit).run stream with
    | ok r =>
      rw [hrun] at h
      cases h
    | error e' =>
      rw [hrun] at h
      cases h
      obtain ⟨tok, htok, htype, hlocation⟩ :=
        Parser.template_error_location (shaped_ofSource hstream) limit hrun
      rw [hlocation]
      exact onText_of_mem hstream htok htype

/-- A position of a source is on one of its lines. -/
theorem Lexing.OnText.line {source : Text} {l : Location} (h : OnText source.normalizeNewlines l) :
    ∃ text, (Excerpt.lines source)[(l.line - 1).toNat]? = some text ∧ 1 ≤ l.line ∧ 1 ≤ l.column ∧
      l.column ≤ text.length + 1 := by
  obtain ⟨o, ho, rfl⟩ := h
  have hline := Text.getElem?_splitOn ho
  have hindex : ((Location.ofOffset source.normalizeNewlines o).line - 1).toNat =
      Text.countByte '\n' (source.normalizeNewlines.take o) := by
    simp only [Location.ofOffset]
    omega
  refine ⟨source.normalizeNewlines.lineAt o, ?_, ?_, ?_, ?_⟩
  · rw [hindex]
    exact hline
  · simp only [Location.ofOffset]
    omega
  · rw [Location.ofOffset_column _ o ho]
    omega
  · rw [Location.ofOffset_column _ o ho, Text.lineAt_eq ho, List.length_append]
    omega

/-! ## Lines -/

/-- The lines that are taken are those of the source from the given one on. -/
theorem Excerpt.ofLines_eq {all : Array Text} {line length : Int} {t : Text}
    (h : ofLines all line length = .ok t) (hsize : (all.size : Int) < 0x8000000000000000)
    (hlength : length < 0x8000000000000000) (hfirst : 1 ≤ line) (hlast : line ≤ all.size) :
    t = Text.join "\n" ((all.toList.drop (line - 1).toNat).take (max length 1).toNat) := by
  have hfits := (ofLines_iff hsize hlength line).mp ⟨t, h⟩ ⟨hfirst, hlast⟩
  rw [ofLines_inside hfirst hlast hfits] at h
  exact (Except.ok.inj h).symm

/-- Where lines are taken from a line that is there, this line is the first of them. -/
theorem Excerpt.ofLines_cons {source text t : Text} {line length : Int}
    (hline : (lines source)[(line - 1).toNat]? = some text) (hfirst : 1 ≤ line)
    (h : ofLines (lines source).toArray line length = .ok t) (hpos : 0 < length)
    (hlength : length < 0x8000000000000000) (hsource : source.length + 1 < 0x8000000000000000) :
    t = Text.join "\n" (text :: ((lines source).drop line.toNat).take (length.toNat - 1)) := by
  obtain ⟨hindex, htext⟩ := List.getElem?_eq_some_iff.mp hline
  have hlines := length_lines source
  have hsize : ((lines source).toArray.size : Int) < 0x8000000000000000 := by
    rw [List.size_toArray]
    omega
  have hlast : line ≤ (lines source).toArray.size := by
    rw [List.size_toArray]
    omega
  have hnext : (line - 1).toNat + 1 = line.toNat := by omega
  have hcount : (max length 1).toNat = length.toNat - 1 + 1 := by omega
  rw [ofLines_eq h hsize hlength hfirst hlast, List.drop_eq_getElem_cons hindex, htext, hnext,
    hcount, List.take_succ_cons]

namespace Validator

variable {v : Validator} {id source : Text} {inputs : List Input} {e : SyntaxError}

/-- The finding about a template that does not parse, with lines of source. -/
theorem diagnostics_of_error (h : parseTemplate v.limit source = .error e)
    {r : TemplateReport} (hr : v.checkTemplate id source inputs = .ok r) :
    ∃ d, v.shown source (parseFailure id e) = .ok d ∧ r.diagnostics = [d] := by
  have hshown := checkTemplate_iff.mp ⟨r, hr, rfl⟩
  rw [findings_error h, excerpted_eq, Diagnostic.mapM_iff] at hshown
  cases hdiagnostics : r.diagnostics with
  | nil =>
    rw [hdiagnostics] at hshown
    cases hshown
  | cons d ds =>
    rw [hdiagnostics] at hshown
    cases hshown with
    | cons hd hrest =>
      cases hrest
      exact ⟨d, hd, rfl⟩

/-- Line and column of a syntax error are those of a byte of the source or of the end of one of its
lines.  The report on the template has one finding, a critical one at that position, and it shows
the line of the error and those below it, as many as are asked for. -/
theorem error_on_line {limit : Nat} {source : Text} {e : SyntaxError}
    (h : parseTemplate limit source = .error e) :
    ∃ text, (Excerpt.lines source)[(e.location.line - 1).toNat]? = some text ∧
      (1 ≤ e.location.line ∧ e.location.line ≤ (Excerpt.lines source).length) ∧
      (1 ≤ e.location.column ∧ e.location.column ≤ text.length + 1) ∧
      ∀ (v : Validator) (id : Text) (inputs : List Input), v.limit = limit →
        0 < v.excerptLength → v.excerptLength < 0x8000000000000000 →
        source.length + 1 < 0x8000000000000000 →
        (v.excerptLength + source.length < 0x8000000000000000 →
          ∃ r, v.checkTemplate id source inputs = .ok r) ∧
        ∀ r, v.checkTemplate id source inputs = .ok r → ∃ d, r.diagnostics = [d] ∧
          d.severity = .critical ∧ d.line = e.location.line ∧ d.column = e.location.column ∧
          d.excerpt = Text.join "\n" (text ::
            ((Excerpt.lines source).drop e.location.line.toNat).take
              (v.excerptLength.toNat - 1)) := by
  obtain ⟨text, hline, hfirst, hcolumn, hwidth⟩ := (onText_of_parseTemplate h).line
  have hindex := (List.getElem?_eq_some_iff.mp hline).1
  refine ⟨text, hline, ⟨hfirst, by omega⟩, ⟨hcolumn, hwidth⟩, ?_⟩
  rintro v id inputs rfl hpos hlength hsource
  constructor
  · intro hsmall
    obtain ⟨es, hes⟩ := (excerpted_iff hsource hlength _).mpr
      fun d (_ : d ∈ v.findings id inputs source) => shows_of_small hsource hsmall d
    obtain ⟨r, hr, -⟩ := checkTemplate_iff.mpr hes
    exact ⟨r, hr⟩
  · intro r hr
    obtain ⟨d, hd, hdiagnostics⟩ := diagnostics_of_error h hr
    rw [shown, if_pos hpos] at hd
    obtain ⟨excerpt, hexcerpt, hd⟩ := bind_eq_ok hd
    cases hd
    exact ⟨_, hdiagnostics, rfl, rfl, rfl,
      Excerpt.ofLines_cons hline hfirst hexcerpt hpos hlength hsource⟩

/-- A variable that is not closed is an error at its opening delimiter. -/
theorem error_on_line_unclosed :
    let source : Text := "a\n\x7b\x7b b"
    ∃ e r d, parseTemplate (plain [] false).limit source = .error e ∧
      (plain [] false).checkTemplate [] source [] = .ok r ∧ r.diagnostics = [d] ∧
      d.line = 2 ∧ d.column = 1 ∧ d.excerpt = "\x7b\x7b b" := by
  intro source
  have hfails : (match parseTemplate (plain [] false).limit source with
      | .ok _ => none
      | .error e => some e.location) = some ⟨2, 1⟩ := by
    decide +kernel
  have hlength : (plain [] false).excerptLength = 1 := rfl
  cases herror : parseTemplate (plain [] false).limit source with
  | ok root =>
    rw [herror] at hfails
    cases hfails
  | error e =>
    rw [herror] at hfails
    have hplace : e.location = ⟨2, 1⟩ := Option.some.inj hfails
    obtain ⟨text, htext, -, -, hreports⟩ := error_on_line herror
    obtain ⟨hanswered, hreport⟩ :=
      hreports (plain [] false) [] [] rfl (by decide) (by decide) (by decide)
    obtain ⟨r, hr⟩ := hanswered (by decide)
    obtain ⟨d, hd, -, hline, hcolumn, hexcerpt⟩ := hreport r hr
    rw [hplace] at htext hline hcolumn
    rw [hplace, hlength] at hexcerpt
    refine ⟨e, r, d, rfl, hr, hd, hline, hcolumn, ?_⟩
    rw [hexcerpt, ← Option.some.inj htext]
    decide

end Validator

end TwigLint
