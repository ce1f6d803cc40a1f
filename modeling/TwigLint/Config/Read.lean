import TwigLint.Config.Basic
import TwigLint.Yaml.Typed

/-! # Reading a configuration

A configuration is a YAML mapping.  Keys that are not known are reported, so that a misspelt setting
does not go unnoticed.
-/

namespace TwigLint.Config

open Yaml (Decode)

/-- A reader of one setting onto a record. -/
abbrev Setting (σ : Type) := σ → Yaml.Node → Decode σ

/-- Reads a value and puts it into a record; a value that is null or does not fit changes
nothing. -/
def setting {σ α : Type} (read : Yaml.Node → Decode (Option α)) (put : σ → α → σ) : Setting σ :=
  fun s n => do
    match ← read n with
    | some a => return put s a
    | none => return s

/-- Reads a mapping with the given settings onto a record. -/
def settings {σ : Type} (type : Text) (fields : List (Text × Setting σ)) (start : σ) :
    Yaml.Node → Decode (Option σ) :=
  Decode.object type start fun key => fields.lookup key

/-- Reads a mapping inside a record. -/
def settingGroup {σ τ : Type} (type : Text) (fields : List (Text × Setting τ)) (get : σ → τ)
    (put : σ → τ → σ) : Setting σ :=
  fun s n => setting (settings type fields (get s)) put s n

/-- Names with hints. -/
def hints : Yaml.Node → Decode (Option (Option Policy.Hints)) :=
  Decode.table "map[string]string" [] Decode.text

/-- Changes to the names a rule knows. -/
def overlay : Yaml.Node → Decode (Option Policy.Overlay) :=
  settings "policy.Overlay" [
    ("ignore", setting Decode.texts fun o ns => { o with ignore := ns }),
    ("allow", setting Decode.texts fun o ns => { o with allow := ns }),
    ("deprecate", setting hints fun o hs => { o with retire := hs }),
    ("warn", setting hints fun o hs => { o with warn := hs }),
    ("forbid", setting hints fun o hs => { o with forbid := hs }),
    ("graylist", setting Decode.bool fun o b => { o with graylist := some b })] .empty

/-- Changes to the names of several rules. -/
def policies : Yaml.Node → Decode (Option (Option Rules.Overlays)) :=
  Decode.table "map[string]policy.Overlay" .empty overlay

def lintSettings : List (Text × Setting LintConfig) := [
  ("fail_on", setting Decode.text fun c t => { c with failOn := t }),
  ("min_severity", setting Decode.text fun c t => { c with minSeverity := t }),
  ("report_unused_inputs", setting Decode.bool fun c b =>
    { c with options.reportUnusedInputs := b }),
  ("known_variables", setting Decode.texts fun c ns => { c with options.knownVariables := ns }),
  ("disabled_rules", setting Decode.texts fun c ns => { c with options.disabledRules := ns }),
  ("policies", setting policies fun c ps => { c with options.policies := ps.getD [] }),
  ("excerpt_length", setting Decode.int fun c n => { c with options.excerptLength := n })]

def outputSettings : List (Text × Setting OutputConfig) := [
  ("format", setting Decode.text fun c t => { c with format := t }),
  ("progress", setting Decode.bool fun c b => { c with progress := b })]

def loggingSettings : List (Text × Setting LoggingConfig) := [
  ("level", setting Decode.text fun c t => { c with level := t }),
  ("format", setting Decode.text fun c t => { c with format := t }),
  ("add_source", setting Decode.bool fun c b => { c with addSource := b })]

def metricsSettings : List (Text × Setting MetricsConfig) := [
  ("enabled", setting Decode.bool fun c b => { c with enabled := b }),
  ("namespace", setting Decode.text fun c t => { c with nameSpace := t }),
  ("subsystem", setting Decode.text fun c t => { c with subsystem := t }),
  ("textfile", setting Decode.text fun c t => { c with textfile := t }),
  ("address", setting Decode.text fun c t => { c with address := t }),
  ("path", setting Decode.text fun c t => { c with path := t }),
  ("duration_buckets", setting (Decode.list "[]float64" Decode.float) fun c xs =>
    { c with durationBuckets := xs })]

def tracingSettings : List (Text × Setting TracingConfig) := [
  ("enabled", setting Decode.bool fun c b => { c with enabled := b }),
  ("sampler", setting Decode.text fun c t => { c with sampler := t }),
  ("sample_ratio", setting Decode.float fun c x => { c with sampleRatio := x }),
  ("endpoint", setting Decode.text fun c t => { c with endpoint := t }),
  ("insecure", setting Decode.bool fun c b => { c with insecure := b }),
  ("timeout", setting Decode.duration fun c n => { c with timeout := n }),
  ("service_name", setting Decode.text fun c t => { c with serviceName := t })]

def watchSettings : List (Text × Setting WatchConfig) := [
  ("debounce", setting Decode.duration fun c n => { c with debounce := n }),
  ("schedule", setting Decode.text fun c t => { c with schedule := t })]

/-- The settings of a configuration. -/
def allSettings : List (Text × Setting Config) := [
  ("projects", setting Decode.texts fun c ns => { c with projects := ns }),
  ("lint", settingGroup "config.LintConfig" lintSettings (·.lint) fun c l => { c with lint := l }),
  ("output",
    settingGroup "config.OutputConfig" outputSettings (·.output) fun c o => { c with output := o }),
  ("logging",
    settingGroup "config.LoggingConfig" loggingSettings (·.logging) fun c l =>
      { c with logging := l }),
  ("metrics",
    settingGroup "config.MetricsConfig" metricsSettings (·.metrics) fun c m =>
      { c with metrics := m }),
  ("tracing",
    settingGroup "config.TracingConfig" tracingSettings (·.tracing) fun c t =>
      { c with tracing := t }),
  ("watch",
    settingGroup "config.WatchConfig" watchSettings (·.watch) fun c w => { c with watch := w }),
  ("workers", setting Decode.int fun c n => { c with workers := .count n })]

/-- The configuration in a text, without defaults. -/
def parse (source : Text) : Except Yaml.Error Config := do
  match ← Yaml.read source with
  | none => return unset
  | some doc =>
    let reading : Decode (Option Config) := do
      Decode.count
      settings "config.Config" allSettings unset doc.root
    return (← reading.complete doc.loops).getD unset

end TwigLint.Config
