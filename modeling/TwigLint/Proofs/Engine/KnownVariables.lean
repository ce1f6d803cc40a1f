import TwigLint.Proofs.Engine.Findings
import TwigLint.Proofs.Engine.Report
import TwigLint.Proofs.Scope.Known

/-! # Known variables and inputs in reports

The variables that are known from the settings are bound in the root scope of every template.  They
cover the inputs of their names, which are reported as unused whatever the template reads.  In an
isolated scope they are not visible, unless every template receives them anyway.
-/

namespace TwigLint

open Rules Tracker ScopedWalk

/-- The lines of source change no messages. -/
theorem Diagnostic.messages_of_shown {ds es : List Diagnostic} (h : List.Forall₂ Shown ds es)
    (p : Text → Bool) :
    (es.filter fun d => p d.rule).map (·.message) =
      (ds.filter fun d => p d.rule).map (·.message) := by
  induction h with
  | nil => rfl
  | cons hshown _ ih =>
    obtain ⟨t, rfl⟩ := hshown
    simp only [List.filter_cons]
    split
    · rw [List.map_cons, List.map_cons, ih]
    · exact ih

namespace Validator

variable {o : LintOptions} {v : Validator} {id source : Text} {inputs : List Input}

theorem ofOptions_settings (hv : ofOptions o = .ok v) :
    Rules.registry o.policies o.disabledRules = .ok v.registry ∧ v.known = o.knownVariables ∧
      v.reportUnusedInputs = o.reportUnusedInputs := by
  obtain ⟨r, hr, hv⟩ := Lexing.bind_eq_ok hv
  cases hv
  exact ⟨hr, rfl, rfl⟩

/-! ## The tracker of a walk -/

theorem tracker_eq (v : Validator) (inputs : List Input) :
    v.tracker inputs =
      (Tracker.new (inputs.map (·.name)) defaultInjected v.reportUnusedInputs).run
        (v.known.map .inject) :=
  foldl_inject _ _

theorem rooted_tracker {name : Text} (h : name ∈ v.known) (inputs : List Input) :
    (v.tracker inputs).Rooted name :=
  rooted_known (new_scopes _ _ _).1 h

theorem injected_tracker (v : Validator) (inputs : List Input) (name : Text) :
    (v.tracker inputs).injected.lookup name = none ↔ name ∉ defaultInjected := by
  rw [tracker_eq, injected_run]
  exact injected_new _ _ _ name

/-- Binding the known variables opens and closes no scopes. -/
theorem continues_tracker (v : Validator) (inputs : List Input) :
    (Tracker.new (inputs.map (·.name)) defaultInjected v.reportUnusedInputs).Continues
      (v.tracker inputs) := by
  have hmatched : Matched (v.known.map ScopeOp.inject) := by
    refine matched_of_isChange fun op hop => ?_
    obtain ⟨name, -, rfl⟩ := List.mem_map.mp hop
    rfl
  rw [tracker_eq]
  exact hmatched.continues _

theorem enclosed_tracker (v : Validator) (inputs : List Input) (around : List Node) :
    (v.tracker inputs).Enclosed around :=
  (enclosed_new _ _ _ around).continues (v.continues_tracker inputs)

/-- The tracker when a walk of a tree is over. -/
def finalTracker (v : Validator) (inputs : List Input) (root : Node) : Tracker :=
  (v.tracker inputs).run ((v.tracker inputs).operations [] root)

/-! ## The report about unused variables -/

theorem names_builtIn (filters functions names : Policy.Table) :
    (builtIn filters functions names).map (fun entry => entry.2.name) = allNames.dropLast := rfl

/-- The rules of a validator have other names than the report about unused variables. -/
theorem rule_of_mem_output (hv : ofOptions o = .ok v) (ctx : Context) (root : Node) :
    ∀ d ∈ v.engine.output ctx root, d.rule ≠ unusedName := by
  obtain ⟨hspeaks, -, -⟩ := ofOptions_built hv
  obtain ⟨filters, functions, names, -, -, -, hrules⟩ :=
    builtIn_of_registry (ofOptions_settings hv).1
  intro d hd
  rw [Engine.output_eq] at hd
  obtain ⟨m, -, hd⟩ := List.mem_flatMap.mp hd
  obtain ⟨r, hr, hd⟩ := List.mem_flatMap.mp hd
  rw [Engine.rule_of_mem_contribution hspeaks hr _ _ d hd]
  obtain ⟨entry, hentry, rfl⟩ := Engine.mem_rulesAt hr
  obtain ⟨kinds, -, hmem⟩ := hrules entry hentry
  have hname : entry.2.name ∈ allNames.dropLast := by
    rw [← names_builtIn filters functions names]
    exact List.mem_map.mpr ⟨_, hmem, rfl⟩
  have hothers : ∀ name ∈ allNames.dropLast, name ≠ unusedName := by decide
  exact hothers _ hname

/-- What a report says about unused variables, when these are their names. -/
def unusedMessages (v : Validator) (names : List Text) : List Text :=
  if unusedName ∈ v.disabled ∨ names = [] then []
  else ["Unused variables: " ++ Text.join ", " names]

theorem messages_unusedVariables (id : Text) (t : Tracker) :
    (unusedVariables id (some t)).map (·.message) =
      if t.unused = [] then [] else ["Unused variables: " ++ Text.join ", " t.unused] := by
  unfold unusedVariables
  cases h : t.unused with
  | nil => simp [h]
  | cons name names => simp [h]; rfl

/-- The findings of a report that are not from rules on nodes are the one about unused
variables. -/
theorem unused_of_checkTemplate (hv : ofOptions o = .ok v) {root : Node}
    (hroot : parseTemplate v.limit source = .ok root) {r : TemplateReport}
    (hr : v.checkTemplate id source inputs = .ok r) :
    (r.diagnostics.filter (·.rule == unusedName)).map (·.message) =
      v.unusedMessages (v.finalTracker inputs root).unused := by
  have hshown := excerpted_shown (checkTemplate_iff.mp ⟨r, hr, rfl⟩)
  have houtput : (v.engine.output (v.context id inputs) root).filter (·.rule == unusedName) = [] :=
    List.filter_eq_nil_iff.mpr fun d hd => by
      simpa using rule_of_mem_output hv (v.context id inputs) root d hd
  have hunused (scope : Option Tracker) :
      (unusedVariables id scope).filter (·.rule == unusedName) = unusedVariables id scope :=
    List.filter_eq_self.mpr fun d hd => by simp [(unusedVariables_worded hd 0).1]
  have hfinal : (v.engine.visit (v.context id inputs) root).1.scope =
      some (v.finalTracker inputs root) := by
    rw [Engine.visit_context]
    rfl
  rw [findings_ok hroot, checkTree_eq, hfinal] at hshown
  rw [Diagnostic.messages_of_shown hshown (· == unusedName), List.filter_append, houtput,
    List.nil_append, unusedMessages]
  by_cases hdisabled : unusedName ∈ v.disabled
  · rw [if_pos (List.contains_iff_mem.mpr hdisabled), if_pos (.inl hdisabled)]
    rfl
  · rw [if_neg (List.contains_iff_mem.not.mpr hdisabled), hunused, messages_unusedVariables]
    simp only [hdisabled, false_or]

/-! ## References to inputs -/

section

variable (hreport : v.reportUnusedInputs = true)
include hreport

theorem finalTracker_eq (root : Node) :
    v.finalTracker inputs root =
      (Tracker.new (inputs.map (·.name)) defaultInjected true).run
        (v.known.map .inject ++ (v.tracker inputs).operations [] root) := by
  rw [finalTracker, run_append, ← hreport, ← tracker_eq]

/-- The report lists unused local names, and then idle inputs. -/
theorem unused_finalTracker (root : Node) :
    (v.finalTracker inputs root).unused =
      (v.finalTracker inputs root).unusedLocals ++ (v.finalTracker inputs root).idleInputs := by
  rw [finalTracker_eq hreport]
  exact unused_run _ _ _

theorem usedAlong_walk (root : Node) :
    (Tracker.new (inputs.map (·.name)) defaultInjected true).usedAlong
        (v.known.map .inject ++ (v.tracker inputs).operations [] root) =
      (v.tracker inputs).usedAlong ((v.tracker inputs).operations [] root) := by
  have hnone (t : Tracker) (names : List Text) : t.usedAlong (names.map .inject) = [] := by
    induction names generalizing t with
    | nil => rfl
    | cons name names ih => exact ih _
  rw [usedAlong_append, hnone, List.nil_append, ← hreport, ← tracker_eq]

/-- An input is idle exactly if no reference of the walk means it, and no local name is in its
place. -/
theorem mem_idleInputs_walk {name : Text} (hinput : name ∈ inputs.map (·.name)) (root : Node) :
    name ∈ (v.finalTracker inputs root).idleInputs ↔
      ((v.tracker inputs).usedAlong ((v.tracker inputs).operations [] root)).contains
          (.input, name) = false ∧ name ∉ (v.finalTracker inputs root).unusedLocals := by
  rw [finalTracker_eq hreport, mem_idleInputs hinput, usedAlong_walk hreport]

/-- A known variable covers the input of its name. -/
theorem covered_tracker {name : Text} (h : name ∈ v.known) :
    (v.tracker inputs).Covered name := by
  rw [tracker, hreport]
  exact covered_known (new_scopes _ _ _).1 (fun i hi => noInput_new _ _ _ _ (mem_of_lookup hi)) h

end

theorem kind?_tracker {name : Text} (hinput : name ∈ inputs.map (·.name)) (h : name ∉ v.known) :
    (v.tracker inputs).kind? name = some .input := by
  rw [tracker, kind?_unknown (valid_new _ _ _) h]
  exact kind?_new hinput _ _

/-- At this moment of a walk a name refers to what the input of its name was bound to before the
walk: nothing in the template hides it, no declaration and no isolated scope. -/
def refersToInput (v : Validator) (inputs : List Input) (m : State × Node) : Bool :=
  m.2.kind == .name && (inputs.map (·.name)).contains m.2.name &&
    m.1.scope.any fun t => t.resolve? m.2.name == (v.tracker inputs).resolve? m.2.name

/-- A reference to an input that is no known variable is a use of it. -/
theorem used_of_refersToInput {root : Node} {m : State × Node}
    (hm : m ∈ moments ⟨(v.context id inputs).scope, []⟩ root)
    (hrefers : v.refersToInput inputs m = true) (hunknown : m.2.name ∉ v.known) :
    ((v.tracker inputs).usedAlong ((v.tracker inputs).operations [] root)).contains
      (.input, m.2.name) = true := by
  obtain ⟨before, behind, hbefore, hwalk⟩ :=
    operations_of_mem_moments (t := v.tracker inputs) rfl hm
  simp only [refersToInput, hbefore, Option.any_some, Bool.and_eq_true, beq_iff_eq,
    List.contains_iff_mem] at hrefers
  obtain ⟨⟨hkind, hinput⟩, hplain⟩ := hrefers
  have hmeans : ((v.tracker inputs).run before).kind? m.2.name = some .input :=
    (storeKept_run _ before).kind? hplain (kind?_tracker hinput hunknown)
  have huse : ((v.tracker inputs).run before).onEnter m.2 m.1.ancestors = [.use m.2.name] := by
    rw [onEnter, hkind]
  rw [huse, List.append_assoc, List.singleton_append] at hwalk
  rw [hwalk]
  exact contains_usedAlong hmeans

/-- Where inputs are reported, an input to which a name in the template refers is listed as unused
exactly if it is a known variable too, unless an unused local of the template is listed in its
place. -/
theorem referenced_input_listed (hv : ofOptions o = .ok v) (hreport : o.reportUnusedInputs = true)
    {root : Node} (hroot : parseTemplate v.limit source = .ok root) {m : State × Node}
    (hm : m ∈ moments ⟨(v.context id inputs).scope, []⟩ root)
    (hrefers : v.refersToInput inputs m = true) :
    let final := v.finalTracker inputs root
    (∀ r, v.checkTemplate id source inputs = .ok r →
      (r.diagnostics.filter (·.rule == unusedName)).map (·.message) =
        v.unusedMessages (final.unusedLocals ++ final.idleInputs)) ∧
    (m.2.name ∈ final.idleInputs ↔
      m.2.name ∈ o.knownVariables ∧ m.2.name ∉ final.unusedLocals) := by
  intro final
  obtain ⟨-, hknown, hreports⟩ := ofOptions_settings hv
  rw [hreport] at hreports
  refine ⟨fun r hr => ?_, ?_⟩
  · rw [unused_of_checkTemplate hv hroot hr, unused_finalTracker hreports]
  · have hinput : m.2.name ∈ inputs.map (·.name) := by
      simp only [refersToInput, Bool.and_eq_true, List.contains_iff_mem] at hrefers
      exact hrefers.1.2
    rw [mem_idleInputs_walk hreports hinput root, ← hknown]
    refine and_congr_left fun _ => ?_
    by_cases hname : m.2.name ∈ v.known
    · have hcovered : (v.tracker inputs).Covered m.2.name := covered_tracker hreports hname
      exact ⟨fun _ => hname, fun _ => hcovered.usedAlong _⟩
    · rw [used_of_refersToInput hm hrefers hname]
      simp [hname]

/-- An input that the template reads. -/
theorem referenced_input_listed_read :
    let o : LintOptions := { LintOptions.default with reportUnusedInputs := true }
    let source : Text := "\x7b\x7b a \x7d\x7d"
    let inputs : List Input := [⟨"a", "string"⟩, ⟨"b", "string"⟩]
    ∃ v root, ofOptions o = .ok v ∧ parseTemplate v.limit source = .ok root ∧
      ∃ m ∈ moments ⟨(v.context [] inputs).scope, []⟩ root, v.refersToInput inputs m = true ∧
        m.2.name ∉ (v.finalTracker inputs root).idleInputs := by
  intro o source inputs
  let v := plain [] true
  have hv : ofOptions o = .ok v := ofOptions_plain [] true
  have hfound : (parseTemplate v.limit source).toOption.map (fun root =>
      (moments ⟨(v.context [] inputs).scope, []⟩ root).any (v.refersToInput inputs)) =
        some true := by
    decide +kernel
  obtain ⟨root, hroot, hfound⟩ := ok_of_toOption_map hfound
  obtain ⟨m, hm, hrefers⟩ := List.any_eq_true.mp hfound
  obtain ⟨-, hlisted⟩ := referenced_input_listed hv rfl hroot hm hrefers
  have hknown : m.2.name ∉ o.knownVariables := List.not_mem_nil
  exact ⟨v, root, hv, hroot, m, hm, hrefers, fun hidle => hknown (hlisted.mp hidle).1⟩

/-- An input that the template reads is listed when it is a known variable too. -/
theorem referenced_input_listed_known :
    let o : LintOptions :=
      { LintOptions.default with knownVariables := ["a"], reportUnusedInputs := true }
    let source : Text := "\x7b\x7b a \x7d\x7d"
    let inputs : List Input := [⟨"a", "string"⟩]
    ∃ v root r, ofOptions o = .ok v ∧ parseTemplate v.limit source = .ok root ∧
      (∃ m ∈ moments ⟨(v.context [] inputs).scope, []⟩ root, v.refersToInput inputs m = true) ∧
      v.checkTemplate [] source inputs = .ok r ∧
      r.diagnostics.map (·.message) = ["Unused variables: a"] := by
  intro o source inputs
  let v := plain ["a"] true
  have hv : ofOptions o = .ok v := ofOptions_plain ["a"] true
  have hrefers : (parseTemplate v.limit source).toOption.map (fun root =>
      (moments ⟨(v.context [] inputs).scope, []⟩ root).any (v.refersToInput inputs)) =
        some true := by
    decide +kernel
  have hreport : (v.checkTemplate [] source inputs).toOption.map (·.diagnostics.map (·.message)) =
      some [("Unused variables: a" : Text)] := by
    decide +kernel
  obtain ⟨root, hroot, hrefers⟩ := ok_of_toOption_map hrefers
  obtain ⟨m, hm, hrefers⟩ := List.any_eq_true.mp hrefers
  obtain ⟨r, hr, hmessages⟩ := ok_of_toOption_map hreport
  exact ⟨v, root, r, hv, hroot, ⟨m, hm, hrefers⟩, hr, hmessages⟩

/-! ## Unknown variables -/

/-- The first words of the message about an unknown variable. -/
def unknownWords : Text := "Unknown variable: '"

theorem begins_unknownWords {message : Text} (h : unknownWords <+: message) :
    begins (openings "name") message = true :=
  List.any_eq_true.mpr ⟨unknownWords, by decide, List.isPrefixOf_iff_prefix.mpr h⟩

/-- No error about a template that does not parse is in the words of a rule. -/
theorem not_begins_syntaxError (rule : Text) (e : SyntaxError) :
    begins (openings rule) e.message = false := by
  have hall : (openingTable.all fun entry => !begins entry.2 e.message) = true := by
    unfold SyntaxError.message
    cases e.fault <;> rfl
  rw [Bool.eq_false_iff]
  intro hbegins
  obtain ⟨words, hwords, hprefix⟩ := List.any_eq_true.mp hbegins
  obtain ⟨os, hos, hmem⟩ := mem_openingTable hwords
  have hother : begins os e.message = false := by simpa using List.all_eq_true.mp hall _ hos
  rw [begins, List.any_eq_true.mpr ⟨words, hmem, hprefix⟩] at hother
  cases hother

/-- No message of a name table is in these words. -/
theorem not_unknownWords_classified {table : Policy.Table}
    (h : table.family = variableTable.family) {ctx : Context} {node : Node} {name : Text}
    {d : Diagnostic} (hd : d ∈ classified table ctx node name) : ¬ unknownWords <+: d.message := by
  have hreports : Reports (tableOpenings variableTable.family) ctx node
      (classified table ctx node name) := reports_classified h (by decide) (fun _ ho => ho) name
  obtain ⟨severity, message, rfl, hbegins, -⟩ := hreports d hd
  obtain ⟨words, hwords, hprefix⟩ := List.any_eq_true.mp hbegins
  intro hunknown
  have hapart : ∀ o ∈ tableOpenings variableTable.family,
      ¬ o <+: unknownWords ∧ ¬ unknownWords <+: o := by decide
  exact (List.prefix_or_prefix_of_prefix (List.isPrefixOf_iff_prefix.mp hprefix) hunknown).elim
    (hapart words hwords).1 (hapart words hwords).2

theorem nodup_names_builtIn (filters functions names : Policy.Table) :
    ((builtIn filters functions names).map fun entry => entry.2.name).Nodup := by
  rw [names_builtIn]
  decide

theorem any_not_mem_builtIn (filters functions names : Policy.Table) :
    ∀ entry ∈ builtIn filters functions names, Kind.any ∉ entry.1 := by
  have hkinds : ∀ kinds ∈ (builtIn filters functions names).map Prod.fst, Kind.any ∉ kinds := by
    -- the kinds do not depend on the tables
    change ∀ kinds ∈ (builtIn filterTable functionTable variableTable).map Prod.fst,
      Kind.any ∉ kinds
    decide
  exact fun entry hentry => hkinds _ (List.mem_map_of_mem hentry)

/-- A finding in the words of a built-in rule is from this rule. -/
theorem builtIn_of_words (hv : ofOptions o = .ok v) {kind : Kind} {r : Rule}
    (hr : r ∈ v.engine.rulesAt kind) {ctx : Context} {node : Node} {d : Diagnostic}
    (hd : d ∈ r.contribution ctx node) {rule : Text}
    (hwords : begins (openings rule) d.message = true) :
    ∃ filters functions names : Policy.Table, filters.family = filterTable.family ∧
      functions.family = functionTable.family ∧ names.family = variableTable.family ∧
      ∀ entry ∈ builtIn filters functions names, entry.2.name = rule →
        kind ∈ entry.1 ∧ r = entry.2 := by
  obtain ⟨hspeaks, -, -⟩ := ofOptions_built hv
  obtain ⟨filters, functions, names, hfilters, hfunctions, hnames, hrules⟩ :=
    builtIn_of_registry (ofOptions_settings hv).1
  refine ⟨filters, functions, names, hfilters, hfunctions, hnames, fun entry hentry hrule => ?_⟩
  have hname : r.name = rule := by
    obtain ⟨entry, hentry, rfl⟩ := Engine.mem_rulesAt hr
    obtain ⟨severity, message, rfl, hbegins, -⟩ := (hspeaks entry hentry).contribution ctx node d hd
    exact openings_disjoint hbegins hwords
  have hregistered {kind : Kind} (h : (kind, r) ∈ v.registry.entries) :
      kind ∈ entry.1 ∧ r = entry.2 := by
    obtain ⟨kinds, hkind, hmem⟩ := hrules _ h
    have hsame : (kinds, r) = entry :=
      List.inj_on_of_nodup_map (nodup_names_builtIn filters functions names) hmem hentry
        (hname.trans hrule.symm)
    subst hsame
    exact ⟨hkind, rfl⟩
  rcases Engine.entry_of_mem_rulesAt hr with h | h
  · exact hregistered h
  · exact absurd (hregistered h).1 (any_not_mem_builtIn filters functions names entry hentry)

/-- Only the rule for variables says that a variable is unknown, and it does so at names. -/
theorem nameRule_of_unknownWords (hv : ofOptions o = .ok v) {kind : Kind} {r : Rule}
    (hr : r ∈ v.engine.rulesAt kind) {ctx : Context} {node : Node} {d : Diagnostic}
    (hd : d ∈ r.contribution ctx node) (hunknown : unknownWords <+: d.message) :
    kind = .name ∧ ∃ names, names.family = variableTable.family ∧ r = nameRule names := by
  obtain ⟨filters, functions, names, -, -, hnames, hrule⟩ :=
    builtIn_of_words hv hr hd (begins_unknownWords hunknown)
  obtain ⟨hkind, rfl⟩ := hrule ([.name], nameRule names) (by simp [builtIn]) rfl
  exact ⟨List.mem_singleton.mp hkind, names, hnames, rfl⟩

/-- The rule for variables reports a name as unknown only where it is not visible. -/
theorem unknown_of_checkName {table : Policy.Table} (h : table.family = variableTable.family)
    {ctx : Context} {node : Node} {d : Diagnostic} (hd : d ∈ checkName table ctx node)
    (hunknown : unknownWords <+: d.message) :
    ctx.knows node.name = false ∧
      d = ctx.report node .error
        (unknownWords ++ node.name ++ "'." ++ didYouMean ctx node.name) := by
  unfold checkName at hd
  split at hd
  · cases hd
  · rcases List.mem_append.mp hd with hd | hd
    · exact absurd hunknown (not_unknownWords_classified h hd)
    · split at hd
      · cases hd
      · rename_i hvisible
        rw [Bool.or_eq_true, not_or, Bool.not_eq_true] at hvisible
        exact ⟨hvisible.1, List.mem_singleton.mp hd⟩

/-- The finding says that the name to which a walk comes at a moment is unknown. -/
structure SaysUnknown (m : State × Node) (d : Diagnostic) : Prop where
  kind : m.2.kind = .name
  line : d.line = m.2.location.line
  column : d.column = m.2.location.column
  message : ∃ hint, d.message = unknownWords ++ m.2.name ++ "'." ++ hint

theorem saysUnknown_of_mem_output (hv : ofOptions o = .ok v) {ctx : Context} {root : Node}
    {d : Diagnostic} (hd : d ∈ v.engine.output ctx root) (hunknown : unknownWords <+: d.message) :
    ∃ m ∈ moments ⟨ctx.scope, ctx.ancestors⟩ root, SaysUnknown m d ∧
      (ctx.atMoment m).knows m.2.name = false := by
  rw [Engine.output_eq] at hd
  obtain ⟨m, hm, hd⟩ := List.mem_flatMap.mp hd
  obtain ⟨r, hr, hd⟩ := List.mem_flatMap.mp hd
  obtain ⟨hkind, names, hnames, rfl⟩ := nameRule_of_unknownWords hv hr hd hunknown
  obtain ⟨found, hfound, rfl⟩ := List.mem_map.mp hd
  -- only the name of the rule is filled in
  have hsame : unknownWords <+: found.message := by
    split at hunknown <;> exact hunknown
  obtain ⟨hvisible, rfl⟩ := unknown_of_checkName hnames hfound hsame
  exact ⟨m, hm, ⟨hkind, rfl, rfl, _, rfl⟩, hvisible⟩

/-- A name is checked when the walk has used it, which makes no difference to what is visible. -/
theorem knows_atMoment {ctx : Context} {m : State × Node} {t : Tracker} (ht : m.1.scope = some t)
    (hvalid : t.Valid) (hkind : m.2.kind = .name) :
    (ctx.atMoment m).knows m.2.name = t.knows m.2.name := by
  rw [Context.knows, Context.atMoment]
  simp only [State.update_scope, ht, Option.map_some, onEnter, hkind]
  exact hvalid.knows_use m.2.name m.2.name

/-- At every moment of a walk, a known variable that not every template receives is visible unless
a node around it walls it off. -/
theorem knows_of_mem_moments (hv : ofOptions o = .ok v) {root : Node} {m : State × Node}
    (hm : m ∈ moments ⟨(v.context id inputs).scope, []⟩ root) :
    ∃ t, m.1.scope = some t ∧ t.Valid ∧ ∀ name ∈ o.knownVariables, (t.knows name = false ↔
      name ∉ defaultInjected ∧ ∃ p ∈ m.1.ancestors, t.Walled p name) := by
  obtain ⟨-, hknown, -⟩ := ofOptions_settings hv
  obtain ⟨before, behind, ht, -⟩ := operations_of_mem_moments (t := v.tracker inputs) rfl hm
  obtain ⟨u, hu, henclosed⟩ := enclosed_of_mem_moments (t := v.tracker inputs) rfl
    (v.foreign_tracker inputs root) (v.enclosed_tracker inputs []) m hm
  obtain rfl : u = (v.tracker inputs).run before := Option.some.inj (hu.symm.trans ht)
  have hvalid := (v.reachable_tracker inputs).valid.run before
  refine ⟨_, ht, hvalid, fun name hname => ?_⟩
  have hrooted := (rooted_tracker (hknown ▸ hname) inputs).run before
  rw [hrooted.knows_iff hvalid henclosed, injected_run, injected_tracker]

section Reports

variable {r : TemplateReport} (hr : v.checkTemplate id source inputs = .ok r)
include hr

/-- A diagnostic in the words of a rule on nodes is a finding of the walk, with lines of source. -/
theorem mem_output_of_words {d : Diagnostic} (hd : d ∈ r.diagnostics) {rule : Text}
    (hwords : begins (openings rule) d.message = true) (hrule : rule ≠ unusedName) :
    ∃ root, parseTemplate v.limit source = .ok root ∧
      ∃ found ∈ v.engine.output (v.context id inputs) root, found.Shown d := by
  obtain ⟨found, hfound, hshown⟩ :=
    Diagnostic.mem_of_shown (excerpted_shown (checkTemplate_iff.mp ⟨r, hr, rfl⟩)) d hd
  have hbegins : begins (openings rule) found.message = true := by
    obtain ⟨excerpt, rfl⟩ := hshown
    exact hwords
  cases hroot : parseTemplate v.limit source with
  | error e =>
    rw [findings_error hroot, List.mem_singleton] at hfound
    rw [hfound, show (parseFailure id e).message = e.message from rfl,
      not_begins_syntaxError] at hbegins
    cases hbegins
  | ok root =>
    rw [findings_ok hroot, checkTree_eq] at hfound
    refine ⟨root, rfl, found, (List.mem_append.mp hfound).resolve_right fun hunused => ?_, hshown⟩
    split at hunused
    · cases hunused
    · -- the report about unused variables is in its own words
      obtain ⟨hname, hworded⟩ := unusedVariables_worded hunused 0
      exact hrule ((openings_disjoint hbegins hworded.words).trans hname)

/-- Every finding of the walk is in the report. -/
theorem exists_of_mem_output {root : Node} (hroot : parseTemplate v.limit source = .ok root)
    {found : Diagnostic} (hfound : found ∈ v.engine.output (v.context id inputs) root) :
    ∃ d ∈ r.diagnostics, found.Shown d := by
  have hshown := excerpted_shown (checkTemplate_iff.mp ⟨r, hr, rfl⟩)
  rw [findings_ok hroot, checkTree_eq] at hshown
  exact Diagnostic.exists_of_shown hshown found (List.mem_append_left _ hfound)

end Reports

/-- A known variable is visible wherever no macro and no `embed` or `with` tag with `only` is around
in which nothing has bound it anew; the names that every template receives are visible there too.
Whatever is reported as unknown is a name that is not visible, so a known variable is reported in no
other place. -/
theorem known_variables_visible (hv : ofOptions o = .ok v) (id source : Text)
    (inputs : List Input) :
    let start : State := ⟨(v.context id inputs).scope, []⟩
    (∀ root, parseTemplate v.limit source = .ok root → ∀ m ∈ moments start root,
      ∀ name ∈ o.knownVariables, ∃ t, m.1.scope = some t ∧ (t.knows name = false ↔
        name ∉ defaultInjected ∧ ∃ p ∈ m.1.ancestors, t.Walled p name)) ∧
    ∀ r, v.checkTemplate id source inputs = .ok r → ∀ d ∈ r.diagnostics,
      unknownWords <+: d.message → ∃ root, parseTemplate v.limit source = .ok root ∧
        ∃ m ∈ moments start root, SaysUnknown m d ∧ ∃ t, m.1.scope = some t ∧
          t.knows m.2.name = false ∧ (m.2.name ∈ o.knownVariables →
            m.2.name ∉ defaultInjected ∧ ∃ p ∈ m.1.ancestors, t.Walled p m.2.name) := by
  intro start
  refine ⟨fun root _ m hm name hname => ?_, fun r hr d hd hunknown => ?_⟩
  · obtain ⟨t, ht, -, hiff⟩ := knows_of_mem_moments hv hm
    exact ⟨t, ht, hiff name hname⟩
  · obtain ⟨root, hroot, found, hfound, excerpt, rfl⟩ :=
      mem_output_of_words hr hd (begins_unknownWords hunknown) (by decide)
    obtain ⟨m, hm, hsaid, hvisible⟩ := saysUnknown_of_mem_output hv hfound hunknown
    obtain ⟨t, ht, hvalid, hiff⟩ := knows_of_mem_moments hv hm
    rw [knows_atMoment ht hvalid hsaid.kind] at hvisible
    exact ⟨root, hroot, m, hm, ⟨hsaid.kind, hsaid.line, hsaid.column, hsaid.message⟩, t, ht,
      hvisible, fun hname => (hiff _ hname).mp hvisible⟩

/-- A known variable in the body of a `with` tag with `only`. -/
theorem known_variables_visible_only :
    let o : LintOptions := { LintOptions.default with knownVariables := ["k"] }
    let source : Text :=
      "\x7b\x7b k \x7d\x7d\x7b% with a only %\x7d\x7b\x7b k \x7d\x7d\x7b% endwith %\x7d"
    ∃ v r, ofOptions o = .ok v ∧ v.checkTemplate [] source [⟨"a", "string"⟩] = .ok r ∧
      ∃ d ∈ r.diagnostics, d.column = 28 ∧ ∃ m, SaysUnknown m d ∧
        (m.2.name ∈ o.knownVariables → ∃ p ∈ m.1.ancestors, isolates p = true) := by
  intro o source
  let v := plain ["k"] false
  have hv : ofOptions o = .ok v := ofOptions_plain ["k"] false
  have hfound : (v.checkTemplate [] source [⟨"a", "string"⟩]).toOption.map
      (·.diagnostics.any fun d => unknownWords.isPrefixOf d.message && d.column == 28) =
        some true := by
    decide +kernel
  obtain ⟨r, hr, hfound⟩ := ok_of_toOption_map hfound
  obtain ⟨d, hd, hfound⟩ := List.any_eq_true.mp hfound
  obtain ⟨hunknown, hcolumn⟩ := Bool.and_eq_true_iff.mp hfound
  obtain ⟨-, -, m, -, hword, t, -, -, hwalled⟩ :=
    (known_variables_visible hv [] source [⟨"a", "string"⟩]).2 r hr d hd
      (List.isPrefixOf_iff_prefix.mp hunknown)
  refine ⟨v, r, hv, hr, d, hd, eq_of_beq hcolumn, m, hword, fun hname => ?_⟩
  obtain ⟨-, p, hp, hisolates⟩ := hwalled hname
  exact ⟨p, hp, hisolates.isolates⟩

/-- A known variable is unknown in a macro. -/
theorem known_variables_visible_macro :
    let o : LintOptions := { LintOptions.default with knownVariables := ["k"] }
    let source : Text :=
      "\x7b% macro m() %\x7d\x7b\x7b k \x7d\x7d\x7b% endmacro %\x7d"
    ∃ v r, ofOptions o = .ok v ∧ v.checkTemplate [] source [] = .ok r ∧
      ∃ d ∈ r.diagnostics, ("Unknown variable: 'k'." : Text) <+: d.message := by
  intro o source
  let v := plain ["k"] false
  have hv : ofOptions o = .ok v := ofOptions_plain ["k"] false
  have hfound : (v.checkTemplate [] source []).toOption.map
      (·.diagnostics.any fun d => ("Unknown variable: 'k'." : Text).isPrefixOf d.message) =
        some true := by
    decide +kernel
  obtain ⟨r, hr, hfound⟩ := ok_of_toOption_map hfound
  obtain ⟨d, hd, hunknown⟩ := List.any_eq_true.mp hfound
  exact ⟨v, r, hv, hr, d, hd, List.isPrefixOf_iff_prefix.mp hunknown⟩

end Validator

end TwigLint
