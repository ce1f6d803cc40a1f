import TwigLint.Command.Lint
import TwigLint.Proofs.Engine.Findings

/-! # The identifier of a component

The identifier under which a template is checked is written into every finding and is not looked at
anywhere else: no rule, no scope and neither the order nor the duplicates of a report depend on it.
So the report on a component that declares nothing is the report on its template alone, with the
identifier put in.
-/

namespace TwigLint

open Rules

/-! ## Rules -/

namespace Rules

/-- The rule finds the same under any identifier. -/
def Nameless (r : Rule) : Prop :=
  ∀ (ctx : Context) (node : Node) (id : Text),
    r.check { ctx with id } node = (r.check ctx node).map (List.map (·.withId id))

section

variable (ctx : Context) (node : Node) (id : Text)

theorem report_withId (severity : Severity) (message : Text) :
    Context.report { ctx with id } node severity message =
      (ctx.report node severity message).withId id := rfl

theorem classified_withId (table : Policy.Table) (name : Text) :
    classified table { ctx with id } node name =
      (classified table ctx node name).map (·.withId id) := by
  simp only [classified, apply_ite (List.map _), List.map_cons, List.map_nil, report_withId]

theorem checkDefault_withId (piped : Node) :
    checkDefault { ctx with id } node piped = (checkDefault ctx node piped).map (·.withId id) := by
  unfold checkDefault
  cases argument? node 0 <;>
    simp only [apply_ite (List.map _), List.map_append, List.map_cons, List.map_nil,
      report_withId] <;> rfl

theorem checkSetAttribute_withId (piped : Node) :
    checkSetAttribute { ctx with id } node piped =
      (checkSetAttribute ctx node piped).map (·.withId id) := by
  unfold checkSetAttribute
  cases argument? node 1 <;>
    simp only [apply_ite (List.map _), List.map_append, List.map_cons, List.map_nil,
      report_withId]

theorem filterCheck_withId {entry : Text × (Context → Node → Node → List Diagnostic)}
    (h : entry ∈ filterChecks) (piped : Node) :
    entry.2 { ctx with id } node piped = (entry.2 ctx node piped).map (·.withId id) := by
  have htrans : checkTrans { ctx with id } node piped =
      (checkTrans ctx node piped).map (·.withId id) := by
    simp only [checkTrans, apply_ite (List.map _), List.map_cons, List.map_nil, report_withId]
  revert entry
  simp only [filterChecks, List.forall_mem_cons, List.not_mem_nil, false_imp_iff, implies_true,
    and_true, htrans, checkDefault_withId, checkSetAttribute_withId]
  simp only [checkAbs, checkAddClass, checkCleanId, apply_ite (List.map _), List.map_cons,
    List.map_nil, report_withId, and_self]

theorem checkFilter_withId (table : Policy.Table) :
    checkFilter table { ctx with id } node = (checkFilter table ctx node).map (·.withId id) := by
  unfold checkFilter
  split
  · rfl
  · rw [classified_withId, List.map_append]
    congr 1
    cases node.child? .node with
    | none => rfl
    | some piped =>
      cases hlookup : filterChecks.lookup node.name with
      | none => rfl
      | some check =>
        obtain ⟨before, behind, htable, -⟩ := List.lookup_eq_some_iff.mp hlookup
        have hentry : (node.name, check) ∈ filterChecks :=
          htable ▸ List.mem_append_right _ (List.mem_cons_self ..)
        exact filterCheck_withId ctx node id hentry piped

theorem checkFunction_withId (table : Policy.Table) :
    checkFunction table { ctx with id } node =
      (checkFunction table ctx node).map (·.withId id) := by
  simp only [checkFunction, classified_withId, apply_ite (List.map _), List.map_append,
    List.map_cons, List.map_nil, report_withId]
  rfl

theorem checkConditional_withId :
    checkConditional { ctx with id } node = (checkConditional ctx node).map (·.withId id) := by
  unfold checkConditional
  cases node.child? .expr3 with
  | none => rfl
  | some expr3 =>
    simp only [apply_ite (List.map _), List.map_append, List.map_cons, List.map_nil, report_withId]

theorem checkTest_withId :
    checkTest { ctx with id } node = (checkTest ctx node).map (·.withId id) := by
  simp only [checkTest, apply_ite (List.map _), List.map_cons, List.map_nil, report_withId]
  rfl

theorem checkStatement_withId :
    checkStatement { ctx with id } node = (checkStatement ctx node).map (·.withId id) := by
  unfold checkStatement
  split <;>
    simp only [apply_ite (List.map _), List.map_cons, List.map_nil, report_withId]

theorem checkAccess_withId :
    checkAccess { ctx with id } node = (checkAccess ctx node).map (·.withId id) := by
  simp only [checkAccess, apply_ite (List.map _), List.map_append, List.map_cons, List.map_nil,
    report_withId]
  rfl

theorem checkName_withId (table : Policy.Table) :
    checkName table { ctx with id } node = (checkName table ctx node).map (·.withId id) := by
  simp only [checkName, classified_withId, apply_ite (List.map _), List.map_append, List.map_cons,
    List.map_nil, report_withId]
  rfl

end

theorem builtIn_nameless (filters functions names : Policy.Table) :
    ∀ entry ∈ builtIn filters functions names, Nameless entry.2 := by
  simp only [builtIn, List.forall_mem_cons, List.not_mem_nil, false_imp_iff, implies_true,
    and_true]
  exact ⟨fun ctx node id => congrArg Except.ok (checkFilter_withId ctx node id filters),
    fun ctx node id => congrArg Except.ok (checkFunction_withId ctx node id functions),
    fun ctx node id => congrArg Except.ok (checkConditional_withId ctx node id),
    fun ctx node id => congrArg Except.ok (checkTest_withId ctx node id),
    fun ctx node id => congrArg Except.ok (checkStatement_withId ctx node id),
    fun ctx node id => congrArg Except.ok (checkAccess_withId ctx node id),
    fun ctx node id => congrArg Except.ok (checkName_withId ctx node id names)⟩

/-- Every rule of a registry that can be built finds the same under any identifier. -/
theorem registry_nameless {overlays : Overlays} {disabled : List Text} {r : Registry}
    (h : registry overlays disabled = .ok r) : ∀ entry ∈ r.entries, Nameless entry.2 := by
  obtain ⟨filters, functions, names, -, -, -, hrules⟩ := builtIn_of_registry h
  intro entry hentry
  obtain ⟨kinds, -, hmem⟩ := hrules entry hentry
  exact builtIn_nameless filters functions names _ hmem

end Rules

/-! ## Walks -/

/-- The run with an identifier in all that it found. -/
def CheckRun.withId (r : CheckRun) (id : Text) : CheckRun :=
  { r with outcome := r.outcome.map (List.map (·.withId id)) }

theorem CheckRun.diagnostics_withId (r : CheckRun) (id old : Text) :
    (r.withId id).diagnostics id = (r.diagnostics old).map (·.withId id) := by
  obtain ⟨rule, node, outcome⟩ := r
  cases outcome with
  | error reason => rfl
  | ok ds =>
    change (ds.map _).map _ = (ds.map _).map _
    rw [List.map_map, List.map_map]
    refine List.map_congr_left fun d _ => ?_
    simp only [Function.comp_apply, Diagnostic.withId]
    split <;> rfl

theorem CheckRun.failure?_withId (r : CheckRun) (id : Text) :
    (r.withId id).failure? = r.failure? := by
  obtain ⟨rule, node, outcome⟩ := r
  cases outcome <;> rfl

namespace Engine

variable {e : Engine}

theorem checkNode_withId (hrules : ∀ entry ∈ e.registry.entries, Nameless entry.2) (ctx : Context)
    (id : Text) (node : Node) :
    e.checkNode { ctx with id } node = (e.checkNode ctx node).map (·.withId id) := by
  unfold checkNode
  rw [List.map_map]
  refine List.map_congr_left fun r hr => ?_
  obtain ⟨entry, hentry, rfl⟩ := mem_rulesAt hr
  exact congrArg (CheckRun.mk entry.2.name node)
    (hrules entry hentry { ctx with rule := entry.2.name } node id)

/-- A walk under another identifier goes through the same scopes, and all runs of rules find the
same. -/
theorem visit_withId (hrules : ∀ entry ∈ e.registry.entries, Nameless entry.2) (ctx : Context)
    (id : Text) (root : Node) :
    (e.visit { ctx with id } root).1.scope = (e.visit ctx root).1.scope ∧
      (e.visit { ctx with id } root).2 = (e.visit ctx root).2.map (·.withId id) := by
  constructor
  · rw [visit_context, visit_context]
  · have hruns (ctx : Context) : (e.visit ctx root).2 =
        (ScopedWalk.moments ⟨ctx.scope, ctx.ancestors⟩ root).flatMap fun m =>
          e.checkNode (ctx.atMoment m) m.2 :=
      ScopedWalk.visit_observations _ _ root
    rw [hruns, hruns, List.map_flatMap]
    exact List.flatMap_congr fun m _ => checkNode_withId hrules (ctx.atMoment m) id m.2

theorem output_withId (hrules : ∀ entry ∈ e.registry.entries, Nameless entry.2) (ctx : Context)
    (id : Text) (root : Node) :
    e.output { ctx with id } root = (e.output ctx root).map (·.withId id) := by
  rw [output, output, (visit_withId hrules ctx id root).2, List.flatMap_map, List.map_flatMap]
  exact List.flatMap_congr fun r _ => r.diagnostics_withId id ctx.id

theorem failures_withId (hrules : ∀ entry ∈ e.registry.entries, Nameless entry.2) (ctx : Context)
    (id : Text) (root : Node) :
    (e.visit { ctx with id } root).2.filterMap CheckRun.failure? =
      (e.visit ctx root).2.filterMap CheckRun.failure? := by
  rw [(visit_withId hrules ctx id root).2, List.filterMap_map]
  congr 1
  funext r
  exact r.failure?_withId id

end Engine

/-! ## Order and duplicates -/

namespace Diagnostic

variable {id old : Text} {ds : List Diagnostic}

theorem key_withId_inj {d e : Diagnostic} (h : d.id = e.id) (id : Text) :
    (d.withId id).key = (e.withId id).key ↔ d.key = e.key := by
  simp [key, withId, h]

/-- Findings about one component are duplicates under any identifier. -/
theorem dedup_withId (h : ∀ d ∈ ds, d.id = old) (id : Text) :
    dedup (ds.map (·.withId id)) = (dedup ds).map (·.withId id) := by
  induction ds with
  | nil => rfl
  | cons d ds ih =>
    obtain ⟨hd, hds⟩ := List.forall_mem_cons.mp h
    rw [List.map_cons, dedup_cons, dedup_cons, List.map_cons, ih hds, List.filter_map]
    congr 2
    refine List.filter_congr fun e he => ?_
    have hsame : e.id = d.id := (hds e (mem_of_mem_dedup he)).trans hd.symm
    rw [Function.comp_apply, bne_eq, bne_eq, Bool.eq_iff_iff]
    simp [key_withId_inj hsame]

/-- Within a group, only the lines matter. -/
theorem before_of_same {a b : Diagnostic} (h : a.group = b.group) (order : List Text) :
    before order a b = decide (wrap64 (a.line - b.line) ≤ 0) := by
  simp [before, h]

/-- Findings of one group are sorted alike under any identifier. -/
theorem sort_withId (h : ∀ d ∈ ds, d.id = old ∧ d.origin = .template) (id : Text) :
    sort (ds.map (·.withId id)) = (sort ds).map (·.withId id) := by
  refine (List.map_mergeSort fun a ha b hb => ?_).symm
  obtain ⟨hida, horigina⟩ := h a ha
  obtain ⟨hidb, horiginb⟩ := h b hb
  have hgroup : a.group = b.group := by rw [group, group, hida, hidb, horigina, horiginb]
  have hgroup' : (a.withId id).group = (b.withId id).group := by
    simp only [group, withId, horigina, horiginb]
  rw [before_of_same hgroup, before_of_same hgroup']
  rfl

end Diagnostic

/-! ## Reports -/

/-- The report on a template with an identifier in all findings. -/
def TemplateReport.withId (r : TemplateReport) (id : Text) : TemplateReport :=
  { r with diagnostics := r.diagnostics.map (·.withId id) }

/-- The report with an identifier in all findings. -/
def ComponentReport.withId (r : ComponentReport) (id : Text) : ComponentReport :=
  ⟨r.diagnostics.map (·.withId id), r.template.map (·.withId id)⟩

/-- The definition has no props, no slots and no variants, and requires nothing. -/
structure Definition.DeclaresNothing (d : Definition) : Prop where
  props : d.props = []
  required : d.requiredProps = []
  slots : d.slots = []
  variants : d.variants = []

namespace Definition.DeclaresNothing

variable {d : Definition} (h : d.DeclaresNothing)
include h

theorem inputs : d.inputs = [] := by rw [Definition.inputs, h.props, h.slots]; rfl

theorem check : Schema.check d = [] := by
  simp [Schema.check, h.props, h.required, h.slots, h.variants]

end Definition.DeclaresNothing

namespace Validator

variable {v : Validator}

theorem unusedVariables_withId (id : Text) (scope : Option Tracker) :
    unusedVariables id scope = (unusedVariables [] scope).map (·.withId id) := by
  unfold unusedVariables
  split <;> rfl

theorem checkTree_withId (hrules : ∀ entry ∈ v.registry.entries, Nameless entry.2) (id : Text)
    (inputs : List Input) (root : Node) :
    v.checkTree id inputs root =
      ((v.checkTree [] inputs root).1.map (·.withId id), (v.checkTree [] inputs root).2) := by
  have hscope : (v.engine.visit (v.context id inputs) root).1.scope =
      (v.engine.visit (v.context [] inputs) root).1.scope :=
    (Engine.visit_withId hrules (v.context [] inputs) id root).1
  have houtput : v.engine.output (v.context id inputs) root =
      (v.engine.output (v.context [] inputs) root).map (·.withId id) :=
    Engine.output_withId hrules (v.context [] inputs) id root
  refine Prod.ext ?_ (Engine.failures_withId hrules (v.context [] inputs) id root)
  change (v.checkTree id inputs root).1 = (v.checkTree [] inputs root).1.map _
  rw [checkTree_eq, checkTree_eq, List.map_append, houtput, hscope, apply_ite (List.map _),
    List.map_nil, ← unusedVariables_withId]

theorem shown_withId (v : Validator) (source id : Text) (d : Diagnostic) :
    v.shown source (d.withId id) = (v.shown source d).map (·.withId id) := by
  unfold shown
  split
  · change (Excerpt.ofLines _ d.line _ >>= _) = _
    cases Excerpt.ofLines (Excerpt.lines source).toArray d.line v.excerptLength <;> rfl
  · rfl

theorem excerpted_withId (v : Validator) (source id : Text) (ds : List Diagnostic) :
    v.excerpted source (ds.map (·.withId id)) =
      (v.excerpted source ds).map (List.map (·.withId id)) := by
  rw [excerpted_eq, excerpted_eq]
  induction ds with
  | nil => rfl
  | cons d ds ih =>
    rw [List.map_cons, List.mapM_cons, List.mapM_cons, shown_withId, ih]
    cases v.shown source d with
    | error c => rfl
    | ok e => cases ds.mapM (v.shown source) <;> rfl

/-- The report on a template under an identifier is that under none, with the identifier put in. -/
theorem checkTemplate_withId (hrules : ∀ entry ∈ v.registry.entries, Nameless entry.2)
    (id source : Text) (inputs : List Input) :
    v.checkTemplate id source inputs = (v.checkTemplate [] source inputs).map (·.withId id) := by
  unfold checkTemplate
  cases parseTemplate v.limit source with
  | error e =>
    have hshown := v.excerpted_withId source id [parseFailure [] e]
    change v.excerpted source [parseFailure id e] = _ at hshown
    simp only [hshown]
    cases v.excerpted source [parseFailure [] e] <;> rfl
  | ok root =>
    have hshown := v.excerpted_withId source id (v.checkTree [] inputs root).1
    simp only [checkTree_withId hrules id, hshown]
    cases v.excerpted source (v.checkTree [] inputs root).1 <;> rfl

/-- Arranging findings about one template does not depend on the identifier. -/
theorem arranged_withId {ds : List Diagnostic} {old : Text}
    (h : ∀ d ∈ ds, d.id = old ∧ d.origin = .template) (id : Text) :
    arranged (ds.map (·.withId id)) = (arranged ds).map (·.withId id) := by
  rw [arranged, Diagnostic.dedup_withId (fun d hd => (h d hd).1), arranged,
    Diagnostic.sort_withId fun d hd => h d (Diagnostic.mem_of_mem_dedup hd)]

theorem origin_of_checkTemplate (hspeaks : ∀ entry ∈ v.registry.entries, Speaks entry.2)
    {id source : Text} {inputs : List Input} {r : TemplateReport}
    (h : v.checkTemplate id source inputs = .ok r) :
    ∀ d ∈ r.diagnostics, d.id = id ∧ d.origin = .template := by
  have hshown := excerpted_shown (checkTemplate_iff.mp ⟨r, h, rfl⟩)
  intro e he
  obtain ⟨d, hd, t, rfl⟩ := Diagnostic.mem_of_shown hshown e he
  exact ⟨(findings_origin hspeaks hd).1, (findings_origin hspeaks hd).2⟩

theorem ofOptions_nameless {o : LintOptions} (h : ofOptions o = .ok v) :
    ∀ entry ∈ v.registry.entries, Nameless entry.2 := by
  obtain ⟨r, hr, h⟩ := Lexing.bind_eq_ok h
  cases h
  exact registry_nameless hr

theorem checkComponent_of_declaresNothing {o : LintOptions} (hv : ofOptions o = .ok v) {id : Text}
    (hid : id ≠ []) {d : Definition} (hd : d.DeclaresNothing) {path source : Text}
    (htemplate : d.template = some (path, source)) :
    v.checkComponent id d = (v.checkSource source).map (·.withId id) := by
  have hspeaks := (ofOptions_built hv).1
  have hchecked := checkTemplate_withId (ofOptions_nameless hv) id source []
  have hnonempty : id.isEmpty = false := by simpa using hid
  unfold checkComponent checkSource
  simp only [hnonempty, Bool.false_eq_true, if_false, htemplate, hd.check, hd.inputs, List.map_nil,
    ite_self, List.nil_append, hchecked]
  cases hreport : v.checkTemplate [] source [] with
  | error c => rfl
  | ok r =>
    have harranged := arranged_withId (origin_of_checkTemplate hspeaks hreport) id
    exact congrArg (fun ds => Except.ok (ComponentReport.mk ds _)) harranged

end Validator

/-! ## The standard input -/

namespace ComponentReport

variable (r : ComponentReport) (id : Text)

theorem failures_withId : (r.withId id).failures = r.failures := by
  obtain ⟨ds, _ | t⟩ := r <;> rfl

/-- The log records name the component that they are asked for. -/
theorem records_withId (named : Text) : (r.withId id).records named = r.records named := by
  obtain ⟨ds, _ | ⟨found, _ | e, failures⟩⟩ := r
  · rfl
  · simp [records, withId, TemplateReport.withId, TemplateReport.records]
  · rfl

end ComponentReport

/-- What linting the standard input makes of a report: log lines, the report under an identifier,
and metrics. -/
def LintCommand.presented (s : Session) (setup : Setup) (id : Text) (r : ComponentReport) :
    Except Crash (Text × Finished) := do
  let metrics := r.failures.foldl (fun m f => m.recordFailure f.rule)
    (Metrics.new setup.config.metrics)
  return (s.lines setup.logger (r.records []),
    ⟨reportOn s RunRequest.defaultTrigger [⟨id, [], [], r.diagnostics⟩],
      ← metrics.recordValidation "source" r.diagnostics s.duration⟩)

theorem LintCommand.runInput_eq (s : Session) (setup : Setup) (componentId : Text) :
    runInput s setup componentId =
      ((setup.validator.checkSource s.input).map
        (·.withId (Config.orElse componentId inputId))).bind
          (presented s setup (Config.orElse componentId inputId)) := by
  unfold runInput
  cases setup.validator.checkSource s.input with
  | error c => rfl
  | ok r =>
    change _ = presented _ _ _ (r.withId _)
    rw [presented, r.failures_withId, r.records_withId]
    rfl

namespace Validator

/-- The two ways to check a template agree.  The report on a component that declares nothing is the
report on its template alone, in the same order and with the same lines of source, with the
identifier of the component put into all findings.  This is what linting the standard input under
that identifier reports. -/
theorem component_agrees_with_source {o : LintOptions} {v : Validator} (hv : ofOptions o = .ok v)
    {id : Text} (hid : id ≠ []) {d : Definition} (hd : d.DeclaresNothing) {path source : Text}
    (htemplate : d.template = some (path, source)) :
    v.checkComponent id d = (v.checkSource source).map (·.withId id) ∧
    ∀ (s : Session) (setup : LintCommand.Setup) (componentId : Text), setup.validator = v →
      s.input = source → Config.orElse componentId LintCommand.inputId = id →
      LintCommand.runInput s setup componentId =
        (v.checkComponent id d).bind (LintCommand.presented s setup id) := by
  have hchecked := checkComponent_of_declaresNothing hv hid hd htemplate
  refine ⟨hchecked, ?_⟩
  rintro s setup componentId rfl rfl rfl
  rw [hchecked, LintCommand.runInput_eq]

/-- An unknown variable in the second line of a template. -/
theorem component_agrees_with_source_unknown :
    let line : Text := "\x7b\x7b a \x7d\x7d"
    let source : Text := "\n" ++ line
    let d : Definition :=
      { Definition.new "p" "c" "c.component.yml" with template := some ("c.twig", source) }
    let found : List (Text × Int × Text × Text) := [("p:c", 2, "name", line)]
    ∃ v, ofOptions .default = .ok v ∧
      v.checkComponent "p:c" d = (v.checkSource source).map (·.withId "p:c") ∧
      (v.checkComponent "p:c" d).toOption.map
        (·.diagnostics.map fun x => (x.id, x.line, x.rule, x.excerpt)) = some found := by
  intro line source d found
  have hid : ("p:c" : Text) ≠ [] := by decide
  have hd : d.DeclaresNothing := ⟨rfl, rfl, rfl, rfl⟩
  have hagrees := (component_agrees_with_source (ofOptions_plain [] false) hid hd rfl).1
  refine ⟨plain [] false, ofOptions_plain [] false, hagrees, ?_⟩
  decide +kernel

end Validator

end TwigLint
