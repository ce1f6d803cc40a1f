import TwigLint.Proofs.Lexing.SourceReading
import TwigLint.Proofs.Engine.Findings

/-! # Line ends

A source is read twice: the lexer reads it to find the tokens, and the lines that a finding shows
are cut out of it again.  Both readings start from the source with its line ends normalised, so
sources that are the same then have the same report.  A source without a carriage return is what is
left of it however its line ends are spelled.
-/

namespace TwigLint

/-- The second text is the first one with some of its line feeds written as CR LF. -/
inductive Respelled : Text → Text → Prop
  | nil : Respelled [] []
  | keep (b : UInt8) {s t : Text} (h : Respelled s t) : Respelled (b :: s) (b :: t)
  | crlf {s t : Text} (h : Respelled s t) :
      Respelled (('\n' : UInt8) :: s) (('\r' : UInt8) :: '\n' :: t)

namespace Text

theorem normalizeNewlines_crlf (t : Text) :
    normalizeNewlines (('\r' : UInt8) :: '\n' :: t) = ('\n' : UInt8) :: normalizeNewlines t := rfl

/-- A byte that is no carriage return stands for itself. -/
theorem normalizeNewlines_cons {b : UInt8} (hb : b ≠ '\r') (t : Text) :
    normalizeNewlines (b :: t) = b :: normalizeNewlines t := by
  cases t with
  | nil => rfl
  | cons c t => simp [normalizeNewlines, hb]

end Text

/-- What is left of a source without carriage returns, whatever its line ends are. -/
theorem Respelled.normalizeNewlines {s t : Text} (h : Respelled s t)
    (hs : ('\r' : UInt8) ∉ s) : t.normalizeNewlines = s := by
  induction h with
  | nil => rfl
  | @keep b s t _ ih =>
    rw [List.mem_cons, not_or] at hs
    rw [Text.normalizeNewlines_cons (Ne.symm hs.1), ih hs.2]
  | @crlf s t _ ih =>
    rw [List.mem_cons, not_or] at hs
    rw [Text.normalizeNewlines_crlf, ih hs.2]

theorem Respelled.sameLines {s t : Text} (h : Respelled s t) (hs : ('\r' : UInt8) ∉ s) :
    t.normalizeNewlines = s.normalizeNewlines := by
  rw [h.normalizeNewlines hs, Lexing.normalizeNewlines_eq_self hs]

/-! ## The two readings of a source -/

section

variable {s t : Text} (h : t.normalizeNewlines = s.normalizeNewlines)
include h

theorem TokenStream.ofSource_congr : TokenStream.ofSource t = TokenStream.ofSource s := by
  unfold TokenStream.ofSource
  rw [h]

theorem parseTemplate_congr (limit : Nat) : parseTemplate limit t = parseTemplate limit s := by
  unfold parseTemplate
  rw [TokenStream.ofSource_congr h]

theorem Excerpt.lines_congr : Excerpt.lines t = Excerpt.lines s := by
  rw [Excerpt.lines, h, Excerpt.lines]

namespace Validator

theorem excerpted_congr (v : Validator) (ds : List Diagnostic) :
    v.excerpted t ds = v.excerpted s ds := by
  unfold excerpted Diagnostic.withExcerpts
  rw [Excerpt.lines_congr h]

theorem checkTemplate_congr (v : Validator) (id : Text) (inputs : List Input) :
    v.checkTemplate id t inputs = v.checkTemplate id s inputs := by
  unfold checkTemplate
  simp only [parseTemplate_congr h, excerpted_congr h]

theorem checkSource_congr (v : Validator) : v.checkSource t = v.checkSource s := by
  unfold checkSource
  rw [checkTemplate_congr h]

theorem checkComponent_congr (v : Validator) (id path : Text) (d : Definition) :
    v.checkComponent id { d with template := some (path, t) } =
      v.checkComponent id { d with template := some (path, s) } := by
  unfold checkComponent
  dsimp only
  rw [checkTemplate_congr h]
  rfl

end Validator

end

namespace Validator

/-- The way in which the lines of a source end makes no difference: not to its tree or the error
about it, not to what is found about it alone, with any inputs or as the template of a component,
and not to the lines that are shown with the findings. -/
theorem reports_of_respelled (v : Validator) {s t : Text} (hs : ('\r' : UInt8) ∉ s)
    (h : Respelled s t) :
    parseTemplate v.limit t = parseTemplate v.limit s ∧
    v.checkSource t = v.checkSource s ∧
    (∀ (id : Text) (inputs : List Input),
      v.checkTemplate id t inputs = v.checkTemplate id s inputs) ∧
    ∀ (id path : Text) (d : Definition),
      v.checkComponent id { d with template := some (path, t) } =
        v.checkComponent id { d with template := some (path, s) } :=
  have hlines := h.sameLines hs
  ⟨parseTemplate_congr hlines v.limit, checkSource_congr hlines v, checkTemplate_congr hlines v,
    checkComponent_congr hlines v⟩

/-- An unknown variable behind a line end and a string with another one. -/
theorem reports_of_respelled_unknown :
    let s : Text := "\x7b\x7b 'a\nb' \x7d\x7d\n\x7b\x7b c \x7d\x7d"
    let t : Text := "\x7b\x7b 'a\r\nb' \x7d\x7d\n\x7b\x7b c \x7d\x7d"
    ∃ v, ofOptions .default = .ok v ∧ v.checkSource t = v.checkSource s ∧
      (v.checkSource s).toOption.map (·.diagnostics.map fun d => (d.line, d.excerpt)) =
        some [(3, ("\x7b\x7b c \x7d\x7d" : Text))] := by
  intro s t
  have hrespelled : Respelled s t := by
    repeat first | exact .nil | refine .crlf ?_ | refine .keep _ ?_
  have hfound : ((plain [] false).checkSource s).toOption.map
      (·.diagnostics.map fun d => (d.line, d.excerpt)) =
        some [(3, ("\x7b\x7b c \x7d\x7d" : Text))] := by
    decide +kernel
  exact ⟨plain [] false, ofOptions_plain [] false,
    (reports_of_respelled _ (by decide) hrespelled).2.1, hfound⟩

end Validator

end TwigLint
