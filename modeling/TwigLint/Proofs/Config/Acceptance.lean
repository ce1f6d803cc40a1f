import TwigLint.Config.Validate
import TwigLint.Proofs.Rules.Overlay
import TwigLint.Proofs.Engine.Disabling

/-! # Accepted settings

The settings for rules are looked at twice: when a configuration is validated, and when the rules
are built from it.  Both ask the same of them, that rules and name tables are called by their names,
and what overlays list in the tables is never at fault.
-/

namespace TwigLint

namespace Config

theorem itemErrors_eq_nil_iff {field : Text} {items : List Text}
    {complaint : Text → Option Text} :
    itemErrors field items complaint = [] ↔ ∀ t ∈ items, complaint t = none := by
  rw [itemErrors, List.filterMap_eq_nil_iff]
  constructor
  · intro h t ht
    obtain ⟨i, hi, rfl⟩ := List.getElem_of_mem ht
    have hentry : (items[i], i) ∈ items.zipIdx := by simp [List.mem_zipIdx_iff_getElem?, hi]
    simpa using h _ hentry
  · rintro h ⟨t, i⟩ hentry
    simpa using h t (List.fst_mem_of_mem_zipIdx hentry)

theorem validate_eq_ok_iff {c : Config} :
    c.validate = .ok () ↔ crash? c = none ∧ errors c = [] := by
  unfold validate
  cases crash? c with
  | some crash => simp
  | none => cases errors c <;> simp

theorem validate_of_errors {c : Config} (hcrash : crash? c = none) (h : errors c ≠ []) :
    c.validate = .error (.invalid ⟨errors c⟩) := by
  rw [validate, hcrash]
  exact if_neg (by simpa using h)

/-- In a configuration that is accepted, rules and name tables are called by their names. -/
theorem names_of_validate {c : Config} (h : c.validate = .ok ()) :
    (∀ o ∈ c.lint.options.policies, o.1 ∈ Rules.tableNames) ∧
      ∀ name ∈ c.lint.options.disabledRules, name ∈ Rules.allNames := by
  have hlint : lintErrors c.lint = [] := by
    have herrors := (validate_eq_ok_iff.mp h).2
    simp only [errors, List.append_eq_nil_iff] at herrors
    exact herrors.1.1.1.1.1.2
  simp only [lintErrors, List.append_eq_nil_iff, List.map_eq_nil_iff, List.filter_eq_nil_iff,
    itemErrors_eq_nil_iff] at hlint
  obtain ⟨⟨⟨-, hrules⟩, htables⟩, -⟩ := hlint
  constructor
  · intro o ho
    simpa using htables o.1 (Text.mem_sort.mpr (List.mem_map_of_mem ho))
  · intro name hname
    simpa using hrules name hname

/-- Validating a configuration and building the rules agree.  There is a validator for the settings
of every configuration that is accepted, whatever its overlays list.  The rules cannot be built
exactly when an overlay is for no name table or a rule that there is not is left out, and the error
says which; no content of an overlay is ever an error. -/
theorem accepted_settings_build :
    (∀ c : Config, c.validate = .ok () → ∃ v, Validator.ofOptions c.lint.options = .ok v) ∧
    ∀ (overlays : Rules.Overlays) (disabled : List Text),
      ((∃ e, Rules.registry overlays disabled = .error e) ↔
        (∃ o ∈ overlays, o.1 ∉ Rules.tableNames) ∨ ∃ name ∈ disabled, name ∉ Rules.allNames) ∧
      ∀ e, Rules.registry overlays disabled = .error e →
        (∃ o ∈ overlays, o.1 ∉ Rules.tableNames ∧ e = .noTable o.1) ∨
          ∃ name ∈ disabled, name ∉ Rules.allNames ∧ e = .unknownRule name := by
  constructor
  · intro c hc
    obtain ⟨htables, hrules⟩ := names_of_validate hc
    obtain ⟨r, hr⟩ := Rules.registry_ok htables hrules
    rw [Validator.ofOptions, hr]
    exact ⟨_, rfl⟩
  · intro overlays disabled
    exact ⟨Rules.registry_error_iff overlays disabled, fun e => Rules.error_of_registry⟩

/-- An overlay that lists a name twice, names of the table in other buckets, one in two buckets, and
the empty name; and the same overlay for a rule without a name table. -/
theorem accepted_settings_build_conflicts :
    let o : Policy.Overlay :=
      { ignore := ["abs", "abs", ""], allow := ["render"], retire := some [("abs", "no")]
        warn := none, forbid := some [("render", ""), ("raw", "")], graylist := some true }
    let c : Config := { unset.withDefaults with
      lint.options := { LintOptions.default with
        policies := [("filter", o)], disabledRules := ["test", "unused"] } }
    (c.validate = .ok () ∧ ∃ v, Validator.ofOptions c.lint.options = .ok v) ∧
      Rules.registry [("test", o)] [] = .error (.noTable "test") := by
  intro o c
  have hvalid : c.validate = .ok () := validate_eq_ok_iff.mpr ⟨rfl, by decide +kernel⟩
  refine ⟨⟨hvalid, accepted_settings_build.1 c hvalid⟩, ?_⟩
  obtain ⟨hfails, hsays⟩ := accepted_settings_build.2 [("test", o)] []
  obtain ⟨e, he⟩ := hfails.mpr (.inl ⟨_, List.mem_singleton_self _, by decide⟩)
  rcases hsays e he with ⟨p, hp, -, rfl⟩ | ⟨name, hname, -⟩
  · obtain rfl := List.mem_singleton.mp hp
    exact he
  · cases hname

end Config

end TwigLint
