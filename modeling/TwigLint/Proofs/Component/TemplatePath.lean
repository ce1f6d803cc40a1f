import TwigLint.Proofs.Component.Reading
import TwigLint.Proofs.Files.CleanPath
import TwigLint.Proofs.Text.Order

/-! # Definitions and their templates

A definition file and its template lie in one folder and have the same name but for the ending.  So
the definition of a changed file can be told from its path alone, and a component is among the
changed ones exactly if its definition or its template is.
-/

namespace TwigLint

namespace Component

/-! ## The name of a definition file -/

/-- With an ending of more than two bytes, a text without slashes is a name. -/
theorem isName_append {stem : Text} (hstem : Path.slash ∉ stem) (ending : Text)
    (hending : Path.slash ∉ ending) (hlength : 2 < ending.length) :
    Path.IsName (stem ++ ending) := by
  have hne (e : Text) (he : e.length ≤ 2) : stem ++ ending ≠ e := by
    intro h
    have hsame := congrArg List.length h
    rw [List.length_append] at hsame
    omega
  exact ⟨⟨hne [] (by decide), by simp [hstem, hending]⟩, hne "." (by decide), hne ".." (by decide)⟩

/-- The path of a definition file: a lead, the name of the component, and the ending. -/
theorem exists_name {d : Text} (h : isDefinition d = true) :
    ∃ lead name, d = lead ++ (name ++ definitionSuffix) ∧ Path.IsLead lead ∧ Path.slash ∉ name := by
  obtain ⟨stem, rfl⟩ := Text.endsWith_iff.mp h
  obtain ⟨lead, name, rfl, hlead, hname⟩ := Path.exists_lead stem
  exact ⟨lead, name, List.append_assoc .., hlead, hname⟩

section

variable {lead name : Text} (hlead : Path.IsLead lead) (hname : Path.slash ∉ name)
include hlead hname

theorem machineName_eq : machineName (lead ++ (name ++ definitionSuffix)) = name := by
  have hsuffix := isName_append hname definitionSuffix (by decide) (by decide)
  rw [machineName, Path.base_lead hlead hsuffix.isElement, Text.dropSuffix_append]

/-- The template of a clean path has the other ending in the place of the one of definitions. -/
theorem templatePath_eq
    (hclean : Path.clean (lead ++ (name ++ definitionSuffix)) =
      lead ++ (name ++ definitionSuffix)) :
    templatePath (lead ++ (name ++ definitionSuffix)) name = lead ++ (name ++ templateSuffix) := by
  have hdefinition := isName_append hname definitionSuffix (by decide) (by decide)
  have htemplate := isName_append hname templateSuffix (by decide) (by decide)
  rw [templatePath, Path.dir_lead hlead hdefinition.isElement.2]
  exact Path.join_clean hlead hdefinition htemplate hclean

end

/-! ## The definition of a changed file -/

theorem definitionFor_of_isDefinition {p : Text} (h : isDefinition p = true) :
    definitionFor p = some p := if_pos h

/-- Nothing ends both as a template and as a definition. -/
theorem not_isDefinition_template (stem : Text) :
    isDefinition (stem ++ templateSuffix) = false := by
  rw [← Bool.not_eq_true]
  intro h
  obtain ⟨stem', hsame⟩ := Text.endsWith_iff.mp h
  have hlast := congrArg List.getLast? hsame
  have htemplate : templateSuffix.getLast? = some ('g' : UInt8) := by decide
  have hdefinition : definitionSuffix.getLast? = some ('l' : UInt8) := by decide
  rw [List.getLast?_append, List.getLast?_append, htemplate, hdefinition, Option.some_or,
    Option.some_or] at hlast
  exact absurd hlast (by decide)

theorem definitionFor_template (stem : Text) :
    definitionFor (stem ++ templateSuffix) = some (stem ++ definitionSuffix) := by
  rw [definitionFor, not_isDefinition_template, if_neg (by decide),
    if_pos (Text.endsWith_append stem templateSuffix), Text.dropSuffix_append]

/-- A path belongs to a definition if it is that or has the ending of templates in its place. -/
theorem definitionFor_eq_some {p d : Text} : definitionFor p = some d ↔
    (p = d ∧ isDefinition d = true) ∨
      ∃ stem, p = stem ++ templateSuffix ∧ d = stem ++ definitionSuffix := by
  constructor
  · intro h
    by_cases hdefinition : isDefinition p = true
    · rw [definitionFor_of_isDefinition hdefinition] at h
      cases h
      exact .inl ⟨rfl, hdefinition⟩
    · by_cases htemplate : p.endsWith templateSuffix = true
      · obtain ⟨stem, rfl⟩ := Text.endsWith_iff.mp htemplate
        rw [definitionFor_template] at h
        cases h
        exact .inr ⟨stem, rfl, rfl⟩
      · rw [definitionFor, if_neg hdefinition, if_neg htemplate] at h
        cases h
  · rintro (⟨rfl, hdefinition⟩ | ⟨stem, rfl, rfl⟩)
    · exact definitionFor_of_isDefinition hdefinition
    · exact definitionFor_template stem

theorem isDefinition_of_definitionFor {p d : Text} (h : definitionFor p = some d) :
    isDefinition d = true := by
  rcases definitionFor_eq_some.mp h with ⟨-, hdefinition⟩ | ⟨stem, -, rfl⟩
  · exact hdefinition
  · exact Text.endsWith_append stem definitionSuffix

/-- A clean path of a definition belongs to itself and to its template, and to nothing else. -/
theorem definitionFor_iff_of_clean {d : Text} (hclean : Path.clean d = d)
    (hd : isDefinition d = true) (p : Text) :
    definitionFor p = some d ↔ p = d ∨ p = templatePath d (machineName d) := by
  obtain ⟨lead, name, rfl, hlead, hname⟩ := exists_name hd
  rw [machineName_eq hlead hname, templatePath_eq hlead hname hclean, definitionFor_eq_some]
  refine or_congr (and_iff_left hd) ⟨?_, fun h => ⟨lead ++ name, ?_, ?_⟩⟩
  · rintro ⟨stem, rfl, hsame⟩
    rw [← List.append_assoc] at hsame
    rw [← List.append_cancel_right hsame, List.append_assoc]
  · rw [h, List.append_assoc]
  · rw [List.append_assoc]

theorem mem_definitionsOf {d : Text} {files : List Text} :
    d ∈ definitionsOf files ↔ ∃ p ∈ files, definitionFor p = some d := by
  rw [definitionsOf, Text.mem_sort, List.mem_eraseDups, List.mem_filterMap]

/-- Changed files select exactly their components.  The definition and the template beside it, which
is the one that is loaded with it, both belong to the definition; no other definition has this
template, what a file belongs to belongs to itself, and a definition is among the changed ones
exactly if it or its template has changed. -/
theorem changed_files_select {d : Text} (hclean : Path.clean d = d) (hd : isDefinition d = true) :
    let template := templatePath d (machineName d)
    definitionFor d = some d ∧ definitionFor template = some d ∧
      (∀ d', Path.clean d' = d' → isDefinition d' = true →
        templatePath d' (machineName d') = template → d' = d) ∧
      (∀ p q, definitionFor p = some q → definitionFor q = some q) ∧
      (∀ files, d ∈ definitionsOf files ↔ d ∈ files ∨ template ∈ files) ∧
      ∀ w provider loaded, Definition.load w d provider = .ok loaded →
        loaded.template = (w.read template).toOption.map fun text => (template, text) := by
  intro template
  have howner : definitionFor template = some d :=
    (definitionFor_iff_of_clean hclean hd template).mpr (.inr rfl)
  refine ⟨definitionFor_of_isDefinition hd, howner, fun d' hclean' hd' hsame => ?_,
    fun p q h => definitionFor_of_isDefinition (isDefinition_of_definitionFor h), fun files => ?_,
    fun w provider loaded h => Definition.template_of_load h⟩
  · have howner' := (definitionFor_iff_of_clean hclean' hd' template).mpr (.inr hsame.symm)
    exact Option.some.inj (howner'.symm.trans howner)
  · simp only [mem_definitionsOf, definitionFor_iff_of_clean hclean hd]
    constructor
    · rintro ⟨p, hp, rfl | rfl⟩
      · exact .inl hp
      · exact .inr hp
    · rintro (h | h)
      · exact ⟨d, h, .inl rfl⟩
      · exact ⟨template, h, .inr rfl⟩

/-- The name of a component may have the endings in it, or be empty. -/
theorem changed_files_select_endings :
    let d : Text := "../a/x.twig.component.yml.component.yml"
    Path.clean d = d ∧ isDefinition d = true ∧
      definitionFor "../a/x.twig.component.yml.twig" = some d ∧
      d ∈ definitionsOf ["../a/x.twig", "../a/x.twig.component.yml.twig"] ∧
      d ∉ definitionsOf ["../a/x.twig", "../a/x.twig.component.yml", "../a/.twig"] := by
  intro d
  have hclean : Path.clean d = d := by decide
  have hd : isDefinition d = true := by decide
  have htemplate : templatePath d (machineName d) = "../a/x.twig.component.yml.twig" := by decide
  obtain ⟨-, howner, -, -, hmem, -⟩ := changed_files_select hclean hd
  rw [htemplate] at howner
  simp only [htemplate] at hmem
  exact ⟨hclean, hd, howner, (hmem _).mpr (.inr (by decide)),
    fun h => absurd ((hmem _).mp h) (by decide)⟩

end Component

end TwigLint
