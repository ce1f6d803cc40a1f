import TwigLint.Proofs.Engine.Disabling

/-! # Findings and reports

What a validator finds about a template does not depend on the lines of source that it shows.  A
report has each finding with its lines, and there is one exactly when the numbers of these lines do
not overflow.
-/

namespace TwigLint

open Rules

/-! ## Answers -/

section

variable {ε α β : Type} {x : Except ε α}

theorem error_of_isOk (h : x.isOk = false) : ∃ e, x = .error e := by
  cases x with
  | error e => exact ⟨e, rfl⟩
  | ok a => cases h

theorem map_ok_iff {f : α → β} {b : β} : x.map f = .ok b ↔ ∃ a, x = .ok a ∧ f a = b := by
  cases x <;> simp [Except.map]

end

/-! ## Settings that change no rules -/

namespace Validator

/-- The validator for settings that change no rules and show one line with a finding. -/
def plain (known : List Text) (reportUnusedInputs : Bool) : Validator :=
  { ofRegistry plainRegistry [] with known, reportUnusedInputs }

theorem ofOptions_plain (known : List Text) (reportUnusedInputs : Bool) :
    ofOptions { LintOptions.default with knownVariables := known, reportUnusedInputs } =
      .ok (plain known reportUnusedInputs) := by
  simp only [ofOptions, LintOptions.default, registry_plain]
  rfl

end Validator

/-! ## Lines of source -/

namespace Excerpt

/-- Lines are asked for that are there, and the number behind the last of them fits in 64 bits. -/
def Fits (all : Array Text) (line length : Int) : Prop :=
  1 ≤ line ∧ line ≤ all.size → line - 1 + max length 1 < 0x8000000000000000

/-- Lines can be taken exactly when the number behind the last one does not overflow. -/
theorem ofLines_iff {all : Array Text} (hsize : (all.size : Int) < 0x8000000000000000)
    {length : Int} (hlength : length < 0x8000000000000000) (line : Int) :
    (∃ t, ofLines all line length = .ok t) ↔ Fits all line length := by
  by_cases hthere : 1 ≤ line ∧ line ≤ all.size
  · obtain ⟨hfirst, hlast⟩ := hthere
    by_cases hfits : line - 1 + max length 1 < 0x8000000000000000
    · exact iff_of_true ⟨_, ofLines_inside hfirst hlast hfits⟩ fun _ => hfits
    · refine iff_of_false ?_ fun h => hfits (h ⟨hfirst, hlast⟩)
      rintro ⟨t, ht⟩
      rw [ofLines_overflow hfirst hlast (by omega) hlength (by omega)] at ht
      cases ht
  · exact iff_of_true ⟨[], ofLines_outside length (by omega)⟩ fun h => absurd h hthere

end Excerpt

theorem Diagnostic.mem_of_shown {ds es : List Diagnostic} (h : List.Forall₂ Shown ds es) :
    ∀ e ∈ es, ∃ d ∈ ds, Shown d e :=
  mem_of_forall₂ h

theorem Diagnostic.exists_of_shown {ds es : List Diagnostic} (h : List.Forall₂ Shown ds es) :
    ∀ d ∈ ds, ∃ e ∈ es, Shown d e :=
  mem_of_forall₂ h.flip

namespace Validator

variable {v : Validator} {source id : Text} {inputs : List Input}

/-- The lines of source of a finding can be shown. -/
def Shows (v : Validator) (source : Text) (d : Diagnostic) : Prop :=
  0 < v.excerptLength → Excerpt.Fits (Excerpt.lines source).toArray d.line v.excerptLength

theorem shown_iff (hsource : source.length + 1 < 0x8000000000000000)
    (hlength : v.excerptLength < 0x8000000000000000) (d : Diagnostic) :
    (∃ e, v.shown source d = .ok e) ↔ v.Shows source d := by
  have hlines := Excerpt.length_lines source
  have hsize : ((Excerpt.lines source).toArray.size : Int) < 0x8000000000000000 := by
    rw [List.size_toArray]
    omega
  unfold shown Shows
  by_cases hpos : 0 < v.excerptLength
  · rw [if_pos hpos, ← Excerpt.ofLines_iff hsize hlength]
    cases Excerpt.ofLines (Excerpt.lines source).toArray d.line v.excerptLength with
    | error c => simp [hpos, bind, Except.bind]
    | ok t => simp [bind, Except.bind, pure, Except.pure]
  · rw [if_neg hpos]
    simp [hpos]

theorem excerpted_iff (hsource : source.length + 1 < 0x8000000000000000)
    (hlength : v.excerptLength < 0x8000000000000000) (ds : List Diagnostic) :
    (∃ es, v.excerpted source ds = .ok es) ↔ ∀ d ∈ ds, v.Shows source d := by
  rw [excerpted_eq]
  constructor
  · rintro ⟨es, hes⟩ d hd
    exact (shown_iff hsource hlength d).mp (Diagnostic.ok_of_mapM hes d hd)
  · intro h
    exact Diagnostic.mapM_ok fun d hd => (shown_iff hsource hlength d).mpr (h d hd)

theorem shows_of_small (hsource : source.length + 1 < 0x8000000000000000)
    (h : v.excerptLength + source.length < 0x8000000000000000) (d : Diagnostic) :
    v.Shows source d :=
  (shown_iff hsource (by omega) d).mp (shown_ok h hsource d)

/-- Findings are shown one by one, in their order. -/
theorem excerpted_shown {ds es : List Diagnostic} (h : v.excerpted source ds = .ok es) :
    List.Forall₂ Diagnostic.Shown ds es := by
  rw [excerpted_eq, Diagnostic.mapM_iff] at h
  exact h.imp fun _ _ => shown_of_ok

/-! ## Templates -/

theorem findings_error {e : SyntaxError} (h : parseTemplate v.limit source = .error e) :
    v.findings id inputs source = [parseFailure id e] := by
  rw [findings, h]

theorem findings_ok {root : Node} (h : parseTemplate v.limit source = .ok root) :
    v.findings id inputs source = (v.checkTree id inputs root).1 := by
  rw [findings, h]

/-- A report on a template has its findings, with the lines of source. -/
theorem checkTemplate_iff {es : List Diagnostic} :
    (∃ r, v.checkTemplate id source inputs = .ok r ∧ r.diagnostics = es) ↔
      v.excerpted source (v.findings id inputs source) = .ok es := by
  unfold checkTemplate findings
  cases parseTemplate v.limit source with
  | error e =>
    simp only
    cases v.excerpted source [parseFailure id e] with
    | error c => simp [bind, Except.bind]
    | ok es => simp [bind, Except.bind, pure, Except.pure]
  | ok root =>
    simp only
    cases v.excerpted source (v.checkTree id inputs root).1 with
    | error c => simp [bind, Except.bind]
    | ok es => simp [bind, Except.bind, pure, Except.pure]

/-- Findings about a template are about the template of the component. -/
theorem findings_origin (hspeaks : ∀ entry ∈ v.registry.entries, Speaks entry.2)
    {d : Diagnostic} (h : d ∈ v.findings id inputs source) : d.id = id ∧ d.origin = .template := by
  rcases findings_worded hspeaks id inputs source with ⟨e, hfound⟩ | hworded
  · rw [hfound, List.mem_singleton] at h
    rw [h]
    exact ⟨rfl, rfl⟩
  · exact ⟨(hworded d h).id, (hworded d h).origin⟩

/-- The lines of two findings about a template are no further apart than the source is long. -/
theorem findings_lines (hspeaks : ∀ entry ∈ v.registry.entries, Speaks entry.2)
    {d e : Diagnostic} (hd : d ∈ v.findings id inputs source)
    (he : e ∈ v.findings id inputs source) : d.line - e.line ≤ source.length + 1 := by
  rcases findings_worded hspeaks id inputs source with ⟨e', hfound⟩ | hworded
  · rw [hfound, List.mem_singleton] at hd he
    rw [hd, he]
    omega
  · have hd := (hworded d hd).line.2
    have he := (hworded e he).line.1
    omega

/-! ## Components -/

variable {d : Definition}

/-- The identifier under which a component is checked. -/
def checkedId (id : Text) (d : Definition) : Text := if id.isEmpty then d.id else id

/-- The findings about a definition. -/
def definitionFindings (id : Text) (d : Definition) : List Diagnostic :=
  (Schema.check d).map (·.withId (checkedId id d))

/-- The findings about the template of a component, if there is one. -/
def templateFindings (v : Validator) (id : Text) (d : Definition) : List Diagnostic :=
  match d.template with
  | none => []
  | some (_, source) => v.findings (checkedId id d) d.inputs source

/-- The source of the template of a component; empty if there is none. -/
def templateSource (d : Definition) : Text := (d.template.map Prod.snd).getD []

/-- A report on a component has the findings about its definition and those about its template with
the lines of source, arranged. -/
theorem checkComponent_iff (hv : v.checksSchema = true) {ds : List Diagnostic} :
    (∃ r, v.checkComponent id d = .ok r ∧ r.diagnostics = ds) ↔
      ∃ es, v.excerpted (templateSource d) (v.templateFindings id d) = .ok es ∧
        arranged (definitionFindings id d ++ es) = ds := by
  unfold checkComponent templateFindings templateSource definitionFindings checkedId
  rw [hv]
  cases d.template with
  | none =>
    have hnone : v.excerpted [] [] = .ok [] := by
      rw [excerpted_eq]
      rfl
    simp [hnone, pure, Except.pure]
  | some template =>
    obtain ⟨path, source⟩ := template
    simp only [Option.map_some, Option.getD_some, if_true]
    constructor
    · rintro ⟨r, hr, rfl⟩
      obtain ⟨report, hreport, hr⟩ := Lexing.bind_eq_ok hr
      cases hr
      exact ⟨report.diagnostics, checkTemplate_iff.mp ⟨report, hreport, rfl⟩, rfl⟩
    · rintro ⟨es, hes, rfl⟩
      obtain ⟨report, hreport, rfl⟩ := checkTemplate_iff.mpr hes
      rw [hreport]
      exact ⟨_, rfl, rfl⟩

end Validator

end TwigLint
