import Mathlib
import TwigLint.Config.Load
import TwigLint.Proofs.Config.Acceptance

/-! # The sequence of loading

A configuration is meant to be loaded in four steps: the file is read, the defaults are applied,
then the environment, and what comes out is validated.  The loader also validates the file with the
defaults before it looks at the environment.  What it loads is what the steps give, but a file that
cannot be used by itself is refused, although the environment may set what is wrong with it.
-/

namespace TwigLint.Config

/-- The file that is read for a path: the default file when none is named. -/
def fileOf (path : Text) : Text := if path.isEmpty then defaultFile else path

/-- The four steps for the content of a file. -/
def inSequence (env : Environment) (path source : Text) : Except ConfigError Config := do
  let c ← (parse source).mapError (.malformed path)
  let final := c.withDefaults.withEnvironment env
  accept .overridden final
  return final

/-- The content of a file makes a configuration that can be used with the defaults alone. -/
def Usable (source : Text) : Prop := ∃ c, parse source = .ok c ∧ c.withDefaults.validate = .ok ()

/-! ## Acceptance -/

section

variable {c : Config} {refused : InvalidConfig → ConfigError}

theorem accept_ok (h : c.validate = .ok ()) : accept refused c = .ok () := by
  rw [accept, h]
  rfl

theorem accept_invalid {i : InvalidConfig} (h : c.validate = .error (.invalid i)) :
    accept refused c = .error (refused i) := by
  rw [accept, h]
  rfl

theorem accept_crashed {crash : Crash} (h : c.validate = .error (.crashed crash)) :
    accept refused c = .error (.crashed crash) := by
  rw [accept, h]
  rfl

end

/-! ## Two files -/

/-- The working directory with a default file. -/
def withDefaultFile (source : Text) : Workspace := ⟨"/w", .folder [(defaultFile, .file source)]⟩

theorem read_withDefaultFile (source : Text) :
    (withDefaultFile source).read (fileOf []) = .ok source := by
  cbv

set_option maxRecDepth 100000 in
theorem parse_workers : parse "workers: 3" = .ok { unset with workers := .count 3 } := by
  cbv

set_option maxRecDepth 100000 in
theorem parse_failOn :
    parse "lint:\n  fail_on: bogus\n" = .ok { unset with lint.failOn := "bogus" } := by
  cbv

/-! ## Steps -/

section

variable {w : Workspace} {env : Environment} {path source : Text}

theorem inSequence_of_parse {c : Config} (h : parse source = .ok c) :
    inSequence env path source =
      (accept .overridden (c.withDefaults.withEnvironment env)).map fun _ =>
        c.withDefaults.withEnvironment env := by
  rw [inSequence, h]
  change (accept _ _).bind _ = _
  cases accept .overridden (c.withDefaults.withEnvironment env) <;> rfl

theorem inSequence_of_malformed {e : Yaml.Error} (h : parse source = .error e) :
    inSequence env path source = .error (.malformed path e) := by
  rw [inSequence, h]
  rfl

/-- The steps never end with the error about a file alone. -/
theorem inSequence_ne_invalid (i : InvalidConfig) :
    inSequence env path source ≠ .error (.invalid i) := by
  cases hparse : parse source with
  | error e =>
    rw [inSequence_of_malformed hparse]
    simp
  | ok c =>
    rw [inSequence_of_parse hparse, accept]
    cases (c.withDefaults.withEnvironment env).validate with
    | ok u => simp [Except.mapError, Except.map]
    | error unusable => cases unusable <;> simp [Except.mapError, Except.map]

section

variable (hread : w.read (fileOf path) = .ok source)
include hread

theorem loadFile_of_malformed {e : Yaml.Error} (h : parse source = .error e) :
    loadFile w (fileOf path) = .error (.malformed (fileOf path) e) := by
  rw [loadFile, hread]
  change ((parse source).mapError _).bind _ = _
  rw [h]
  rfl

theorem loadFile_of_parse {c : Config} (h : parse source = .ok c) :
    loadFile w (fileOf path) = (accept .invalid c.withDefaults).map fun _ => c.withDefaults := by
  rw [loadFile, hread]
  change ((parse source).mapError _).bind _ = _
  rw [h]
  change (accept _ _).bind _ = _
  cases accept .invalid c.withDefaults <;> rfl

/-- A file that can be read is loaded, also when it is the default file. -/
theorem loadBase_eq : loadBase w path = loadFile w (fileOf path) := by
  unfold loadBase
  by_cases hpath : path.isEmpty
  · have hfile : fileOf path = defaultFile := if_pos hpath
    rw [if_neg (by simpa using hpath), ← hfile]
    split
    · -- the file was read, so that loading it does not fail with this error
      rename_i p e hunread
      exfalso
      cases hparse : parse source with
      | error e =>
        rw [loadFile_of_malformed hread hparse] at hunread
        cases hunread
      | ok c =>
        rw [loadFile_of_parse hread hparse, accept] at hunread
        cases hvalid : c.withDefaults.validate with
        | ok u =>
          rw [hvalid] at hunread
          cases hunread
        | error unusable =>
          rw [hvalid] at hunread
          cases unusable <;> cases hunread
    · rfl
  · rw [if_pos (by simpa using hpath), fileOf, if_neg hpath]

/-- Loading validates the file with the defaults, and then what the environment makes of it. -/
theorem load_of_parse {c : Config} (h : parse source = .ok c) :
    load w env path = (accept .invalid c.withDefaults).bind fun _ =>
      inSequence env (fileOf path) source := by
  rw [load, loadBase_eq hread, loadFile_of_parse hread h, inSequence_of_parse h]
  cases accept .invalid c.withDefaults with
  | error e => rfl
  | ok u =>
    change (accept _ _).bind _ = _
    cases accept .overridden (c.withDefaults.withEnvironment env) <;> rfl

theorem load_of_malformed {e : Yaml.Error} (h : parse source = .error e) :
    load w env path = inSequence env (fileOf path) source := by
  rw [load, loadBase_eq hread, loadFile_of_malformed hread h, inSequence_of_malformed h]
  rfl

theorem load_of_usable (h : Usable source) :
    load w env path = inSequence env (fileOf path) source := by
  obtain ⟨c, hparse, hvalid⟩ := h
  rw [load_of_parse hread hparse, accept_ok hvalid]
  rfl

theorem load_of_invalid {c : Config} {i : InvalidConfig} (hparse : parse source = .ok c)
    (hvalid : c.withDefaults.validate = .error (.invalid i)) :
    load w env path = .error (.invalid i) := by
  rw [load_of_parse hread hparse, accept_invalid hvalid]
  rfl

theorem load_of_crashed {c : Config} {crash : Crash} (hparse : parse source = .ok c)
    (hvalid : c.withDefaults.validate = .error (.crashed crash)) :
    load w env path = .error (.crashed crash) := by
  rw [load_of_parse hread hparse, accept_crashed hvalid]
  rfl

/-- What is loaded comes from a file that can be used by itself. -/
theorem usable_of_load {c : Config} (h : load w env path = .ok c) : Usable source := by
  cases hparse : parse source with
  | error e =>
    rw [load_of_malformed hread hparse, inSequence_of_malformed hparse] at h
    cases h
  | ok c₀ =>
    cases hvalid : c₀.withDefaults.validate with
    | ok u => exact ⟨c₀, hparse, hvalid⟩
    | error unusable =>
      cases unusable with
      | invalid i =>
        rw [load_of_invalid hread hparse hvalid] at h
        cases h
      | crashed crash =>
        rw [load_of_crashed hread hparse hvalid] at h
        cases h

end

/-- Loading an existing file, in any environment, gives what the four steps give if the file can be
used by itself, or cannot be read as a configuration.  Any other file is refused for what is wrong
with it by itself, whatever the environment is, and that is never what the four steps say.  So a
configuration is loaded exactly when the four steps give it and the file can be used by itself. -/
theorem load_follows_sequence (hread : w.read (fileOf path) = .ok source) (env : Environment) :
    (Usable source ∨ (∃ e, parse source = .error e) →
      load w env path = inSequence env (fileOf path) source) ∧
    (∀ c i, parse source = .ok c → c.withDefaults.validate = .error (.invalid i) →
      load w env path = .error (.invalid i) ∧
        inSequence env (fileOf path) source ≠ .error (.invalid i)) ∧
    (∀ c crash, parse source = .ok c → c.withDefaults.validate = .error (.crashed crash) →
      load w env path = .error (.crashed crash)) ∧
    ∀ c, load w env path = .ok c ↔
      inSequence env (fileOf path) source = .ok c ∧ Usable source := by
  refine ⟨?_, fun c i hparse hvalid => ?_, fun c crash hparse hvalid => ?_, fun c => ⟨?_, ?_⟩⟩
  · rintro (husable | ⟨e, hparse⟩)
    · exact load_of_usable hread husable
    · exact load_of_malformed hread hparse
  · exact ⟨load_of_invalid hread hparse hvalid, inSequence_ne_invalid i⟩
  · exact load_of_crashed hread hparse hvalid
  · intro hload
    have husable := usable_of_load hread hload
    exact ⟨load_of_usable hread husable ▸ hload, husable⟩
  · rintro ⟨hsequence, husable⟩
    rw [load_of_usable hread husable, hsequence]

end

/-- A number of workers that the environment changes. -/
theorem load_follows_sequence_workers :
    let w := withDefaultFile "workers: 3"
    let env : Environment := [("SDCLINT_WORKERS", "5")]
    w.read (fileOf []) = .ok "workers: 3" ∧ Usable "workers: 3" ∧
      load w env [] = inSequence env defaultFile "workers: 3" ∧
      ∃ c, load w env [] = .ok c ∧ c.workers = .count 5 := by
  intro w env
  have hread := read_withDefaultFile "workers: 3"
  have husable : Usable "workers: 3" :=
    ⟨_, parse_workers, validate_eq_ok_iff.mpr ⟨rfl, by decide +kernel⟩⟩
  have hsteps := (load_follows_sequence hread env).1 (.inl husable)
  refine ⟨hread, husable, hsteps, ?_⟩
  rw [hsteps, inSequence_of_parse parse_workers,
    accept_ok (validate_eq_ok_iff.mpr ⟨rfl, by decide +kernel⟩)]
  exact ⟨_, rfl, by decide +kernel⟩

/-- A threshold that is none, which the environment replaces by one: the four steps give a
configuration with it, and the file is refused. -/
theorem load_follows_sequence_refused :
    let source : Text := "lint:\n  fail_on: bogus\n"
    let w := withDefaultFile source
    let env : Environment := [("SDCLINT_FAIL_ON", "error")]
    w.read (fileOf []) = .ok source ∧
      (∃ c, inSequence env defaultFile source = .ok c ∧ c.lint.failOn = "error") ∧
      ∃ i, load w env [] = .error (.invalid i) := by
  intro source w env
  have hread := read_withDefaultFile source
  refine ⟨hread, ?_, ?_⟩
  · rw [inSequence_of_parse parse_failOn,
      accept_ok (validate_eq_ok_iff.mpr ⟨rfl, by decide +kernel⟩)]
    exact ⟨_, rfl, by decide +kernel⟩
  · rw [load_of_parse hread parse_failOn,
      accept_invalid (validate_of_errors rfl (by decide +kernel))]
    exact ⟨_, rfl⟩

end TwigLint.Config
