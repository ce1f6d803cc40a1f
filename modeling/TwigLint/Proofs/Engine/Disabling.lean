import TwigLint.Proofs.Engine.Excerpt
import TwigLint.Proofs.Engine.Failure
import TwigLint.Proofs.Grammar.BuiltParser
import TwigLint.Proofs.Lexing.Position
import TwigLint.Proofs.Rules.Messages
import TwigLint.Lint.Validator
import Mathlib.Data.List.Forall2

/-! # Disabling rules

A validator without some rules finds what the validator with all rules finds, but for the findings
of those rules.  Rules do not influence each other, since the walk does not depend on them, and
their findings are no duplicates of each other, since their messages differ.
-/

namespace TwigLint

open Rules

/-! ## Findings of single rules -/

theorem Rules.Speaks.contribution {r : Rule} (h : Speaks r) (ctx : Context) (node : Node) :
    Reports (openings r.name) { ctx with rule := r.name } node (r.contribution ctx node) := by
  obtain ⟨ds, hds, hreports⟩ := h { ctx with rule := r.name } node
  intro d hd
  rw [Rule.contribution_of_ok hds] at hd
  obtain ⟨found, hfound, rfl⟩ := List.mem_map.mp hd
  obtain ⟨severity, message, rfl, hbegins⟩ := hreports found hfound
  refine ⟨severity, message, ?_, hbegins⟩
  split <;> rfl

/-- The finding is about the template of a component, on one of the given number of lines or on
none, and is in the words of its rule. -/
structure Diagnostic.Worded (id : Text) (lines : Nat) (d : Diagnostic) : Prop where
  id : d.id = id
  origin : d.origin = .template
  line : 0 ≤ d.line ∧ d.line ≤ lines
  words : begins (openings d.rule) d.message = true

/-! ## Walks without some rules -/

namespace Engine

/-- The engine without the rules of some names. -/
def without (e : Engine) (names : List Text) : Engine := ⟨e.registry.without names, names⟩

theorem rulesAt_without {e : Engine} (he : e.disabled = []) (names : List Text) (kind : Kind) :
    (e.without names).rulesAt kind =
      (e.rulesAt kind).filter fun r => !names.contains r.name := by
  rw [rulesAt, rulesAt, he, without, Registry.rulesFor_without, List.filter_filter,
    List.filter_filter]
  refine List.filter_congr fun r _ => ?_
  rw [Bool.and_self, List.contains_nil, Bool.not_false, Bool.and_true]

/-- Leaving rules out leaves out what they find, when every rule finds things in its own name. -/
theorem flatMap_filter_rules {rules : List Rule} {find : Rule → List Diagnostic} (p : Text → Bool)
    (h : ∀ r ∈ rules, ∀ d ∈ find r, d.rule = r.name) :
    (rules.filter fun r => p r.name).flatMap find =
      rules.flatMap fun r => (find r).filter fun d => p d.rule := by
  induction rules with
  | nil => rfl
  | cons r rules ih =>
    have hown : (find r).filter (fun d => p d.rule) = if p r.name then find r else [] := by
      rw [List.filter_congr (q := fun _ => p r.name) fun d hd => by
        rw [h r (List.mem_cons_self ..) d hd]]
      cases p r.name
      · exact List.filter_false ..
      · exact List.filter_true ..
    rw [List.filter_cons, List.flatMap_cons, hown,
      ← ih fun r hr => h r (List.mem_cons_of_mem _ hr)]
    cases p r.name <;> rfl

theorem rule_of_mem_contribution {e : Engine}
    (hspeaks : ∀ entry ∈ e.registry.entries, Speaks entry.2) {kind : Kind} {r : Rule}
    (hr : r ∈ e.rulesAt kind) (ctx : Context) (node : Node) :
    ∀ d ∈ r.contribution ctx node, d.rule = r.name := by
  intro d hd
  obtain ⟨entry, hentry, rfl⟩ := mem_rulesAt hr
  obtain ⟨severity, message, rfl, -⟩ := (hspeaks entry hentry).contribution ctx node d hd
  rfl

/-- What is found without some rules is what is found, but for the findings of those rules. -/
theorem output_without {e : Engine} (he : e.disabled = [])
    (hspeaks : ∀ entry ∈ e.registry.entries, Speaks entry.2) (names : List Text) (ctx : Context)
    (root : Node) :
    (e.without names).output ctx root =
      (e.output ctx root).filter fun d => !names.contains d.rule := by
  rw [output_eq, output_eq, List.filter_flatMap]
  congr 1
  funext m
  rw [rulesAt_without he, List.filter_flatMap]
  exact flatMap_filter_rules (fun name => !names.contains name) fun r hr =>
    rule_of_mem_contribution hspeaks hr (ctx.atMoment m) m.2

/-- The findings about a tree from the parser are in the words of their rules and on lines of the
source. -/
theorem output_worded {e : Engine} (hspeaks : ∀ entry ∈ e.registry.entries, Speaks entry.2)
    {limit : Nat} {source : Text} {root : Node} (hroot : parseTemplate limit source = .ok root)
    (ctx : Context) : ∀ d ∈ e.output ctx root, d.Worded ctx.id (source.length + 1) := by
  have hbuilt := built_of_parseTemplate hroot
    (Q := fun tok => 1 ≤ tok.location.line ∧ tok.location.line ≤ source.length + 1)
    fun stream hstream tok htok => Lexing.ofSource_lines hstream htok
  intro d hd
  rw [output_eq] at hd
  obtain ⟨m, hm, hd⟩ := List.mem_flatMap.mp hd
  obtain ⟨r, hr, hd⟩ := List.mem_flatMap.mp hd
  obtain ⟨entry, hentry, rfl⟩ := mem_rulesAt hr
  obtain ⟨severity, message, rfl, hbegins⟩ := (hspeaks entry hentry).contribution _ _ d hd
  obtain ⟨c, hnode⟩ := hbuilt.of_mem_nodes (ScopedWalk.mem_nodes_of_mem_moments hm)
  obtain ⟨tok, hline, htok⟩ := hnode.location
  rw [htok] at hline
  exact ⟨rfl, rfl, ⟨Int.le_trans (by decide) hline.1, by exact_mod_cast hline.2⟩, hbegins.1⟩

end Engine

/-! ## Arranged findings -/

/-- Leaving out the findings of some rules commutes with arranging. -/
theorem Validator.arranged_filter {ds : List Diagnostic} {id : Text} {lines : Nat}
    (hlines : lines < 0x8000000000000000) (h : ∀ d ∈ ds, d.Worded id lines) (p : Text → Bool) :
    arranged (ds.filter fun d => p d.rule) = (arranged ds).filter fun d => p d.rule := by
  have hkeys : ∀ d ∈ ds, ∀ e ∈ ds, d.key = e.key → p d.rule = p e.rule := by
    intro d hd e he hkey
    have hmessage : d.message = e.message := by
      simp only [Diagnostic.key, Prod.mk.injEq] at hkey
      exact hkey.2.2.2.2.2
    rw [openings_disjoint (h d hd).words (hmessage ▸ (h e he).words)]
  have huniform : Diagnostic.Uniform (Diagnostic.dedup ds) := by
    refine ⟨⟨id ++ 0 :: Origin.template.name, fun d hd => ?_⟩, fun d hd => ?_⟩
    · have hd := h d (Diagnostic.mem_of_mem_dedup hd)
      rw [Diagnostic.group, hd.id, hd.origin]
    · have hd := h d (Diagnostic.mem_of_mem_dedup hd)
      exact ⟨hd.line.1, by have := hd.line.2; omega⟩
  rw [arranged, arranged, Diagnostic.dedup_filter hkeys]
  exact huniform.sort_filter _

/-! ## Lines of source -/

namespace Excerpt

theorem length_splitBy (isSep : UInt8 → Bool) (t : Text) :
    (t.splitBy isSep).length ≤ t.length + 1 := by
  fun_induction Text.splitBy isSep t <;> grind

theorem length_lines (source : Text) : (lines source).length ≤ source.length + 1 := by
  have hsplit := length_splitBy (· == '\n') source.normalizeNewlines
  have hshorter := Lexing.length_normalizeNewlines_le source
  exact Nat.le_trans hsplit (Nat.succ_le_succ hshorter)

/-- Lines can be taken when their numbers do not overflow. -/
theorem ofLines_ok {all : Array Text} {length : Int} (h : length + all.size ≤ 0x8000000000000000)
    (hsize : (all.size : Int) < 0x8000000000000000) (line : Int) :
    ∃ t, ofLines all line length = .ok t := by
  by_cases hthere : 1 ≤ line ∧ line ≤ all.size
  · exact ⟨_, ofLines_inside hthere.1 hthere.2 (by omega)⟩
  · exact ⟨[], ofLines_outside length (by omega)⟩

end Excerpt

theorem mem_of_forall₂ {α β : Type} {R : α → β → Prop} {as : List α} {bs : List β}
    (h : List.Forall₂ R as bs) : ∀ b ∈ bs, ∃ a ∈ as, R a b := by
  induction h with
  | nil => simp
  | @cons a b as bs hab _ ih =>
    intro c hc
    rcases List.mem_cons.mp hc with rfl | hc
    · exact ⟨a, List.mem_cons_self .., hab⟩
    · obtain ⟨d, hd, hdc⟩ := ih c hc
      exact ⟨d, List.mem_cons_of_mem _ hd, hdc⟩

namespace Diagnostic

/-- Only the lines of source may differ. -/
def Shown (d e : Diagnostic) : Prop := ∃ t, e = { d with excerpt := t }

theorem Shown.rule {d e : Diagnostic} (h : Shown d e) : e.rule = d.rule := by
  obtain ⟨t, rfl⟩ := h
  rfl

theorem Shown.worded {d e : Diagnostic} (h : Shown d e) {id : Text} {lines : Nat}
    (hd : d.Worded id lines) : e.Worded id lines := by
  obtain ⟨t, rfl⟩ := h
  exact ⟨hd.id, hd.origin, hd.line, hd.words⟩

theorem mapM_iff {f : Diagnostic → Except Crash Diagnostic} {ds es : List Diagnostic} :
    ds.mapM f = .ok es ↔ List.Forall₂ (fun d e => f d = .ok e) ds es := by
  induction ds generalizing es with
  | nil => cases es <;> simp [pure, Except.pure]
  | cons d ds ih =>
    rw [List.mapM_cons]
    constructor
    · intro h
      obtain ⟨e, he, h⟩ := Lexing.bind_eq_ok h
      obtain ⟨rest, hrest, h⟩ := Lexing.bind_eq_ok h
      cases h
      exact .cons he (ih.mp hrest)
    · intro h
      cases h with
      | cons he hrest =>
        rw [he, ih.mpr hrest]
        rfl

theorem ok_of_mapM {f : Diagnostic → Except Crash Diagnostic} {ds es : List Diagnostic}
    (h : ds.mapM f = .ok es) : ∀ d ∈ ds, ∃ e, f d = .ok e := by
  intro d hd
  obtain ⟨e, -, he⟩ := mem_of_forall₂ (mapM_iff.mp h).flip d hd
  exact ⟨e, he⟩

/-- Leaving findings out commutes with what is done to each when that cannot go wrong for those that
are left out. -/
theorem mapM_filter {f : Diagnostic → Except Crash Diagnostic} {p : Diagnostic → Bool}
    (hp : ∀ d e, f d = .ok e → p e = p d) {ds : List Diagnostic}
    (hleft : ∀ d ∈ ds, p d = false → ∃ e, f d = .ok e) :
    (ds.filter p).mapM f = (ds.mapM f).map (List.filter p) := by
  induction ds with
  | nil => rfl
  | cons d ds ih =>
    obtain ⟨hd, hds⟩ := List.forall_mem_cons.mp hleft
    rw [List.filter_cons, List.mapM_cons]
    cases hkept : p d with
    | true =>
      rw [if_pos rfl, List.mapM_cons, ih hds]
      cases hf : f d with
      | error c => rfl
      | ok e =>
        have he : p e = true := (hp d e hf).trans hkept
        cases ds.mapM f with
        | error c => rfl
        | ok es => exact congrArg Except.ok (List.filter_cons_of_pos he).symm
    | false =>
      obtain ⟨e, hf⟩ := hd hkept
      have he : ¬ p e = true := by rw [hp d e hf, hkept]; decide
      rw [if_neg (by decide), ih hds, hf]
      cases ds.mapM f with
      | error c => rfl
      | ok es => exact congrArg Except.ok (List.filter_cons_of_neg he).symm

theorem mem_of_mapM {f : Diagnostic → Except Crash Diagnostic} {ds es : List Diagnostic}
    (h : ds.mapM f = .ok es) : ∀ e ∈ es, ∃ d ∈ ds, f d = .ok e :=
  mem_of_forall₂ (mapM_iff.mp h)

theorem mapM_ok {f : Diagnostic → Except Crash Diagnostic} {ds : List Diagnostic}
    (h : ∀ d ∈ ds, ∃ e, f d = .ok e) : ∃ es, ds.mapM f = .ok es := by
  induction ds with
  | nil => exact ⟨[], rfl⟩
  | cons d ds ih =>
    obtain ⟨⟨e, he⟩, hrest⟩ := List.forall_mem_cons.mp h
    obtain ⟨es, hes⟩ := ih hrest
    exact ⟨e :: es, by rw [List.mapM_cons, he, hes]; rfl⟩

end Diagnostic

namespace Validator

/-- The finding with its lines of source. -/
def shown (v : Validator) (source : Text) (d : Diagnostic) : Except Crash Diagnostic :=
  if 0 < v.excerptLength then do
    return { d with
      excerpt := ← Excerpt.ofLines (Excerpt.lines source).toArray d.line v.excerptLength }
  else .ok d

theorem excerpted_eq (v : Validator) (source : Text) (ds : List Diagnostic) :
    v.excerpted source ds = ds.mapM (v.shown source) := by
  unfold excerpted shown
  by_cases h : 0 < v.excerptLength
  · simp only [h, if_true]
    rfl
  · simp only [h, if_false]
    have hpure : ds.mapM (fun d => (pure (id d) : Except Crash Diagnostic)) = pure (ds.map id) :=
      List.mapM_pure
    rw [List.map_id] at hpure
    exact hpure.symm

theorem shown_of_ok {v : Validator} {source : Text} {d e : Diagnostic}
    (h : v.shown source d = .ok e) : d.Shown e := by
  unfold shown at h
  split at h
  · obtain ⟨t, -, h⟩ := Lexing.bind_eq_ok h
    cases h
    exact ⟨t, rfl⟩
  · cases h
    exact ⟨d.excerpt, rfl⟩

theorem shown_ok {v : Validator} {source : Text}
    (h : v.excerptLength + source.length < 0x8000000000000000)
    (hsource : source.length + 1 < 0x8000000000000000) (d : Diagnostic) :
    ∃ e, v.shown source d = .ok e := by
  have hlines := Excerpt.length_lines source
  unfold shown
  by_cases hlength : 0 < v.excerptLength
  · have hsize : (Excerpt.lines source).toArray.size ≤ source.length + 1 := by
      rwa [List.size_toArray]
    obtain ⟨t, ht⟩ : ∃ t, Excerpt.ofLines _ d.line v.excerptLength = .ok t :=
      Excerpt.ofLines_ok (by omega) (Int.lt_of_le_of_lt (Int.ofNat_le.mpr hsize) (by omega)) d.line
    rw [if_pos hlength, ht]
    exact ⟨_, rfl⟩
  · rw [if_neg hlength]
    exact ⟨d, rfl⟩

/-! ## Validators without some rules -/

/-- The validator without the rules of some names. -/
def without (v : Validator) (names : List Text) : Validator :=
  { v with registry := v.registry.without names, disabled := names }

/-- Disabling rules in the settings leaves them out of the validator, and changes nothing about
settings that are at fault. -/
theorem ofOptions_disabled (o : LintOptions) {names : List Text}
    (hvalid : ∀ name ∈ names, name ∈ Rules.allNames) :
    ofOptions { o with disabledRules := names } =
      (ofOptions { o with disabledRules := [] }).map fun v => v.without names := by
  simp only [ofOptions]
  rw [Rules.registry_disabled o.policies hvalid]
  cases Rules.registry o.policies [] with
  | error e => rfl
  | ok r => rfl

/-- In a validator for some settings the rules speak for themselves, and definitions are checked. -/
theorem ofOptions_built {o : LintOptions} {v : Validator} (h : ofOptions o = .ok v) :
    (∀ entry ∈ v.registry.entries, Speaks entry.2) ∧ v.checksSchema = true ∧
      v.excerptLength ≤ max o.excerptLength 1 := by
  obtain ⟨r, hr, h⟩ := Lexing.bind_eq_ok h
  cases h
  refine ⟨Rules.registry_speaks hr, rfl, ?_⟩
  simp only [LintOptions.defaultExcerptLength]
  split
  · omega
  · split <;> omega

/-- A validator for settings that disable nothing runs all rules. -/
theorem ofOptions_full {o : LintOptions} {v : Validator}
    (h : ofOptions { o with disabledRules := [] } = .ok v) :
    v.disabled = [] ∧ (∀ entry ∈ v.registry.entries, Speaks entry.2) ∧
      v.excerptLength ≤ max o.excerptLength 1 := by
  obtain ⟨hspeaks, -, hlength⟩ := ofOptions_built h
  obtain ⟨r, -, h⟩ := Lexing.bind_eq_ok h
  cases h
  exact ⟨rfl, hspeaks, hlength⟩

/-- No rule is named like the finding about a template that does not parse. -/
theorem not_contains_parse {names : List Text} (hvalid : ∀ name ∈ names, name ∈ Rules.allNames) :
    names.contains "parse" = false := by
  rw [Bool.eq_false_iff, ne_eq, List.contains_iff_mem]
  exact fun h => absurd (hvalid _ h) (by decide)

/-- The findings about a template, before they are shown. -/
def findings (v : Validator) (id : Text) (inputs : List Input) (source : Text) :
    List Diagnostic :=
  match parseTemplate v.limit source with
  | .error e => [parseFailure id e]
  | .ok root => (v.checkTree id inputs root).1

/-- The findings about a bare template, before they are shown and arranged. -/
def found (v : Validator) (source : Text) : List Diagnostic :=
  match parseTemplate v.limit source with
  | .error e => [parseFailure [] e]
  | .ok root => (v.checkTree [] [] root).1

theorem checkTree_eq (v : Validator) (id : Text) (inputs : List Input) (root : Node) :
    (v.checkTree id inputs root).1 = v.engine.output (v.context id inputs) root ++
      if v.disabled.contains unusedName then []
      else unusedVariables id (v.engine.visit (v.context id inputs) root).1.scope := rfl

theorem unusedVariables_worded {id : Text} {scope : Option Tracker} {d : Diagnostic}
    (h : d ∈ unusedVariables id scope) (lines : Nat) : d.rule = unusedName ∧ d.Worded id lines := by
  unfold unusedVariables at h
  split at h
  · cases h
  · cases h
  · obtain rfl := List.mem_singleton.mp h
    refine ⟨rfl, rfl, rfl, ⟨Int.le_refl _, Int.natCast_nonneg lines⟩, ?_⟩
    have hopens : begins (openings unusedName) "Unused variables: " = true := by decide
    exact begins_append hopens _

theorem found_without {v : Validator} (hv : v.disabled = [])
    (hspeaks : ∀ entry ∈ v.registry.entries, Speaks entry.2) {names : List Text}
    (hvalid : ∀ name ∈ names, name ∈ Rules.allNames) (source : Text) :
    (v.without names).found source = (v.found source).filter fun d => !names.contains d.rule := by
  have hlimit : (v.without names).limit = v.limit := rfl
  unfold found
  rw [hlimit]
  cases parseTemplate v.limit source with
  | error e =>
    have hkept : names.contains (parseFailure [] e).rule = false := not_contains_parse hvalid
    simp only
    rw [List.filter_singleton, hkept]
    rfl
  | ok root =>
    have houtput := v.engine.output_without hv hspeaks names (v.context [] []) root
    have hscope : ((v.engine.without names).visit (v.context [] []) root).1.scope =
        (v.engine.visit (v.context [] []) root).1.scope := by
      rw [Engine.visit_context, Engine.visit_context]
    simp only
    rw [checkTree_eq, checkTree_eq, List.filter_append, ← houtput]
    congr 1
    change (if names.contains unusedName then [] else unusedVariables []
      ((v.engine.without names).visit (v.context [] []) root).1.scope) = _
    rw [hscope, hv, List.contains_nil, if_neg Bool.false_ne_true]
    rw [List.filter_congr (q := fun _ => !names.contains unusedName) fun d hd => by
      rw [(unusedVariables_worded hd 0).1]]
    cases names.contains unusedName
    · exact (List.filter_true _).symm
    · exact (List.filter_false _).symm

/-- Unless the template does not parse, the findings are in the words of their rules. -/
theorem findings_worded {v : Validator} (hspeaks : ∀ entry ∈ v.registry.entries, Speaks entry.2)
    (id : Text) (inputs : List Input) (source : Text) :
    (∃ e, v.findings id inputs source = [parseFailure id e]) ∨
      ∀ d ∈ v.findings id inputs source, d.Worded id (source.length + 1) := by
  unfold findings
  cases hroot : parseTemplate v.limit source with
  | error e => exact .inl ⟨e, rfl⟩
  | ok root =>
    refine .inr fun d hd => ?_
    simp only at hd
    rw [checkTree_eq] at hd
    rcases List.mem_append.mp hd with hd | hd
    · exact v.engine.output_worded hspeaks hroot _ d hd
    · split at hd
      · cases hd
      · exact (unusedVariables_worded hd _).2

theorem found_worded {v : Validator} (hspeaks : ∀ entry ∈ v.registry.entries, Speaks entry.2)
    (source : Text) :
    (∃ e, v.found source = [parseFailure [] e]) ∨
      ∀ d ∈ v.found source, d.Worded [] (source.length + 1) :=
  findings_worded hspeaks [] [] source

/-- The diagnostics of a bare template are its findings, shown and arranged. -/
theorem checkSource_iff {v : Validator} {source : Text} {ds : List Diagnostic} :
    (∃ r, v.checkSource source = .ok r ∧ r.diagnostics = ds) ↔
      ∃ es, (v.found source).mapM (v.shown source) = .ok es ∧ arranged es = ds := by
  unfold checkSource checkTemplate found
  cases parseTemplate v.limit source with
  | error e =>
    simp only
    rw [excerpted_eq]
    cases [parseFailure [] e].mapM (v.shown source) with
    | error c => simp [bind, Except.bind]
    | ok es => simp [bind, Except.bind, pure, Except.pure]
  | ok root =>
    simp only
    rw [excerpted_eq]
    cases (v.checkTree [] [] root).1.mapM (v.shown source) with
    | error c => simp [bind, Except.bind]
    | ok es => simp [bind, Except.bind, pure, Except.pure]

theorem mem_of_mem_arranged {d : Diagnostic} {ds : List Diagnostic} (h : d ∈ arranged ds) :
    d ∈ ds :=
  Diagnostic.mem_of_mem_dedup (List.mem_mergeSort.mp h)

/-- Leaving out the findings of some rules commutes with arranging what is shown. -/
theorem arranged_shown_filter {v : Validator} {source : Text} {es : List Diagnostic}
    (hspeaks : ∀ entry ∈ v.registry.entries, Speaks entry.2)
    (hsource : source.length + 1 < 0x8000000000000000)
    (hes : (v.found source).mapM (v.shown source) = .ok es) {p : Text → Bool}
    (hparse : p "parse" = true) :
    arranged (es.filter fun d => p d.rule) = (arranged es).filter fun d => p d.rule := by
  rcases v.found_worded hspeaks source with ⟨e, hfound⟩ | hworded
  · -- the one finding stays
    have hkept : ∀ d ∈ es, p d.rule = true := by
      intro d hd
      obtain ⟨d', hd', hshown⟩ := Diagnostic.mem_of_mapM hes d hd
      rw [hfound, List.mem_singleton] at hd'
      rw [(shown_of_ok hshown).rule, hd']
      exact hparse
    rw [List.filter_eq_self.mpr hkept,
      List.filter_eq_self.mpr fun d hd => hkept d (mem_of_mem_arranged hd)]
  · have hshown : ∀ d ∈ es, d.Worded [] (source.length + 1) := by
      intro d hd
      obtain ⟨d', hd', hshown⟩ := Diagnostic.mem_of_mapM hes d hd
      exact (shown_of_ok hshown).worded (hworded d' hd')
    exact arranged_filter hsource hshown p

/-- Disabling rules is exact filtering: the diagnostics about a bare template are those with all
rules, in their order and with their lines of source, without those of the disabled rules.  Settings
that are at fault stay so, and the template can be checked with all rules when the numbers of the
shown lines do not overflow.  The lines of the source have 64-bit numbers. -/
theorem disabling_filters (o : LintOptions) {names : List Text}
    (hvalid : ∀ name ∈ names, name ∈ Rules.allNames) {source : Text}
    (hsource : source.length + 1 < 0x8000000000000000) :
    (∀ e, ofOptions { o with disabledRules := [] } = .error e →
      ofOptions { o with disabledRules := names } = .error e) ∧
    ∀ full, ofOptions { o with disabledRules := [] } = .ok full →
      ∃ v, ofOptions { o with disabledRules := names } = .ok v ∧
        (∀ all, full.checkSource source = .ok all → ∃ r, v.checkSource source = .ok r ∧
          r.diagnostics = all.diagnostics.filter fun d => !names.contains d.rule) ∧
        (o.excerptLength + source.length < 0x8000000000000000 →
          ∃ all, full.checkSource source = .ok all) := by
  rw [ofOptions_disabled o hvalid]
  refine ⟨fun e he => by rw [he]; rfl, fun full hfull => ?_⟩
  refine ⟨full.without names, by rw [hfull]; rfl, fun all hall => ?_, fun hlength => ?_⟩
  · obtain ⟨hdisabled, hspeaks, -⟩ := ofOptions_full hfull
    obtain ⟨es, hes, harranged⟩ := checkSource_iff.mp ⟨all, hall, rfl⟩
    refine checkSource_iff.mpr ⟨es.filter fun d => !names.contains d.rule, ?_, ?_⟩
    · rw [found_without hdisabled hspeaks hvalid]
      have hkept := Diagnostic.mapM_filter (p := fun d => !names.contains d.rule)
        (fun d e h => by rw [(shown_of_ok h).rule]) fun d hd _ => Diagnostic.ok_of_mapM hes d hd
      rw [hes] at hkept
      exact hkept
    · rw [← harranged]
      refine arranged_shown_filter hspeaks hsource hes (p := fun name => !names.contains name) ?_
      rw [not_contains_parse hvalid, Bool.not_false]
  · have hbound : full.excerptLength + source.length < 0x8000000000000000 := by
      have hmax := (ofOptions_full hfull).2.2
      omega
    obtain ⟨es, hes⟩ := Diagnostic.mapM_ok fun d (_ : d ∈ full.found source) =>
      shown_ok hbound hsource d
    obtain ⟨all, hall, -⟩ := checkSource_iff.mpr ⟨es, hes, rfl⟩
    exact ⟨all, hall⟩

/-- A variable that is neither known nor used, without the check for unused variables. -/
theorem disabling_filters_unused :
    let o : LintOptions := .default
    let source : Text := "\x7b% set a=b %\x7d"
    ∃ full v all r, ofOptions { o with disabledRules := [] } = .ok full ∧
      ofOptions { o with disabledRules := [unusedName] } = .ok v ∧
      full.checkSource source = .ok all ∧ v.checkSource source = .ok r ∧
      r.diagnostics =
        all.diagnostics.filter fun d => !([unusedName] : List Text).contains d.rule := by
  intro o source
  have hvalid : ∀ name ∈ [unusedName], name ∈ Rules.allNames := by decide
  have hsource : source.length + 1 < 0x8000000000000000 := by decide
  have hlength : o.excerptLength + source.length < 0x8000000000000000 := by decide
  have hok : (ofOptions { o with disabledRules := [] }).isOk = true := by decide +kernel
  cases hfull : ofOptions { o with disabledRules := [] } with
  | error e =>
    rw [hfull] at hok
    cases hok
  | ok full =>
    obtain ⟨v, hv, hfilters, hchecks⟩ := (disabling_filters o hvalid hsource).2 full hfull
    obtain ⟨all, hall⟩ := hchecks hlength
    obtain ⟨r, hr, hdiagnostics⟩ := hfilters all hall
    exact ⟨full, v, all, r, rfl, hv, hall, hr, hdiagnostics⟩

end Validator

end TwigLint
