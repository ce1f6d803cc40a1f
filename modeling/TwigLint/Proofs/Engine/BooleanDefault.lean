import TwigLint.Proofs.Engine.KnownVariables
import TwigLint.Proofs.Scope.Inputs

/-! # The `default` filter on boolean inputs

A template should not apply the `default` filter to a boolean input.  The rule for filters finds the
input by its name and does not ask the scopes, so that it reports every `default` filter on the name
of a boolean input.  There the name refers to the input exactly if the root scope still binds it to
the input and no node around hides it.
-/

namespace TwigLint

open Rules Tracker ScopedWalk

namespace Rules

/-- The message about a `default` filter on a boolean input. -/
def booleanWords : Text := "Don't use 'default' filter on boolean."

theorem begins_booleanWords : begins (openings "filter") booleanWords = true := by decide

/-- The node applies the `default` filter to a name that a boolean input has. -/
structure DefaultsBoolean (ctx : Context) (node operand : Node) : Prop where
  kind : node.kind = .filter
  name : node.name = "default"
  child : node.child? .node = some operand
  isName : operand.kind = .name
  type : ctx.inputType operand.name = "boolean"

/-! ## The rule for filters -/

section

variable {ctx : Context} {node operand : Node} {table : Policy.Table}

/-- The check of `default` finds the type of an input by its name. -/
theorem mem_checkDefault :
    booleanWords ∈ (checkDefault ctx node operand).map (·.message) ↔
      operand.kind = .name ∧ ctx.inputType operand.name = "boolean" := by
  constructor
  · intro hwords
    obtain ⟨d, hd, hwords⟩ := List.mem_map.mp hwords
    have hother (severity : Severity) {message : Text} (hne : message ≠ booleanWords) :
        d ∉ [ctx.report node severity message] := by
      intro hd
      rw [List.mem_singleton.mp hd] at hwords
      exact hne hwords
    rcases List.mem_append.mp hd with hd | hd
    · split at hd
      · exact absurd hd (hother _ (by decide))
      · split at hd
        · rename_i hname
          simpa using hname
        · cases hd
    · cases hargument : argument? node 0 with
      | none =>
        rw [hargument] at hd
        cases hd
      | some arg =>
        simp only [hargument] at hd
        split at hd
        · exact absurd hd (hother _ (by decide))
        · split at hd
          · exact absurd hd (hother _ (by decide))
          · cases hd
  · rintro ⟨hname, htype⟩
    have hliteral : (operand.isBool || operand.isNull) = false := by
      simp [Node.isBool, Node.isNull, Node.literal?, hname]
    refine List.mem_map.mpr ⟨ctx.report node .error booleanWords, List.mem_append_left _ ?_, rfl⟩
    rw [hliteral, if_neg Bool.false_ne_true, if_pos (by simp [hname, htype])]
    exact List.mem_singleton_self _

/-- The rule for filters reports exactly the `default` filters on names of boolean inputs. -/
theorem mem_checkFilter (h : table.family = filterTable.family) (hkind : node.kind = .filter) :
    booleanWords ∈ (checkFilter table ctx node).map (·.message) ↔
      ∃ operand, DefaultsBoolean ctx node operand := by
  constructor
  · intro hwords
    obtain ⟨d, hd, hwords⟩ := List.mem_map.mp hwords
    have hother {os : List Text} {ds : List Diagnostic} (hds : Reports os ctx node ds)
        (hos : begins os booleanWords = false) : d ∉ ds := by
      intro hd
      obtain ⟨severity, message, rfl, hbegins, -⟩ := hds d hd
      rw [show message = booleanWords from hwords, hos] at hbegins
      cases hbegins
    unfold checkFilter at hd
    split at hd
    · cases hd
    · rcases List.mem_append.mp hd with hd | hd
      · have hclassified : Reports (tableOpenings filterTable.family) ctx node
            (classified table ctx node node.name) :=
          reports_classified h (by decide) (fun _ ho => ho) node.name
        exact absurd hd (hother hclassified (by decide))
      · split at hd
        · rename_i operand check hoperand hcheck
          rcases reports_filterChecks operand _ (mem_filterChecks hcheck) with
            ⟨hname, hdefault⟩ | hreports
          · obtain rfl : check = checkDefault := hdefault
            obtain ⟨hisName, htype⟩ := mem_checkDefault.mp (List.mem_map.mpr ⟨d, hd, hwords⟩)
            exact ⟨operand, hkind, hname, hoperand, hisName, htype⟩
          · exact absurd hd (hother hreports (by decide))
        · cases hd
  · rintro ⟨operand, hdefault⟩
    have hcheck : filterChecks.lookup node.name = some checkDefault := by
      rw [hdefault.name]
      rfl
    have hname : node.name.isEmpty = false := by
      rw [hdefault.name]
      rfl
    unfold checkFilter
    rw [hname, if_neg Bool.false_ne_true, hdefault.child, hcheck, List.map_append]
    exact List.mem_append_right _ (mem_checkDefault.mpr ⟨hdefault.isName, hdefault.type⟩)

end

end Rules

namespace Validator

variable {o : LintOptions} {v : Validator}

/-- The rule for filters runs unless it is left out. -/
theorem filterRule_at (hv : ofOptions o = .ok v) (henabled : ("filter" : Text) ∉ o.disabledRules) :
    ∃ filters, filters.family = filterTable.family ∧
      filterRule filters ∈ v.engine.rulesAt .filter := by
  obtain ⟨r, hr, hv⟩ := Lexing.bind_eq_ok hv
  obtain ⟨filters, functions, names, hfilters, -, -, rfl⟩ := assembled_of_registry hr
  have hkept : (!o.disabledRules.contains "filter") = true := by simpa using henabled
  have hentry : (Kind.filter, filterRule filters) ∈
      (assembled filters functions names o.disabledRules).entries :=
    List.mem_filter.mpr ⟨by simp [registrations, builtIn], hkept⟩
  cases hv
  refine ⟨filters, hfilters, List.mem_filter.mpr ⟨?_, hkept⟩⟩
  rw [Registry.rulesFor_eq, Registry.resolve, if_neg (by decide)]
  exact List.mem_append_left _ (List.mem_map.mpr ⟨_, List.mem_filter.mpr ⟨hentry, rfl⟩, rfl⟩)

/-- The finding says that the node applies the `default` filter to a boolean. -/
structure SaysBoolean (node : Node) (d : Diagnostic) : Prop where
  message : d.message = booleanWords
  line : d.line = node.location.line
  column : d.column = node.location.column

section

variable {ctx : Context} {root : Node}

theorem defaultsBoolean_of_mem_output (hv : ofOptions o = .ok v) {d : Diagnostic}
    (hd : d ∈ v.engine.output ctx root) (hwords : d.message = booleanWords) :
    ∃ m ∈ moments ⟨ctx.scope, ctx.ancestors⟩ root, SaysBoolean m.2 d ∧
      ∃ operand, DefaultsBoolean ctx m.2 operand := by
  rw [Engine.output_eq] at hd
  obtain ⟨m, hm, hd⟩ := List.mem_flatMap.mp hd
  obtain ⟨r, hr, hd⟩ := List.mem_flatMap.mp hd
  obtain ⟨filters, functions, names, hfilters, -, -, hrule⟩ :=
    builtIn_of_words hv hr hd (hwords ▸ begins_booleanWords)
  obtain ⟨hkind, rfl⟩ := hrule ([.filter], filterRule filters) (by simp [builtIn]) rfl
  obtain ⟨found, hfound, rfl⟩ := List.mem_map.mp hd
  -- only the name of the rule is filled in
  have hsame : found.message = booleanWords := by
    split at hwords <;> exact hwords
  obtain ⟨operand, hdefault⟩ := (mem_checkFilter hfilters (List.mem_singleton.mp hkind)).mp
    (List.mem_map.mpr ⟨found, hfound, hsame⟩)
  obtain ⟨severity, message, rfl, -⟩ := reports_filter hfilters found hfound
  exact ⟨m, hm, ⟨hwords, rfl, rfl⟩, operand, hdefault.kind, hdefault.name, hdefault.child,
    hdefault.isName, hdefault.type⟩

theorem says_of_defaultsBoolean (hv : ofOptions o = .ok v)
    (henabled : ("filter" : Text) ∉ o.disabledRules) {m : State × Node}
    (hm : m ∈ moments ⟨ctx.scope, ctx.ancestors⟩ root) {operand : Node}
    (h : DefaultsBoolean ctx m.2 operand) :
    ∃ d ∈ v.engine.output ctx root, SaysBoolean m.2 d := by
  obtain ⟨filters, hfilters, hr⟩ := filterRule_at hv henabled
  have hdefault : DefaultsBoolean { ctx.atMoment m with rule := "filter" } m.2 operand :=
    ⟨h.kind, h.name, h.child, h.isName, h.type⟩
  obtain ⟨d, hd, hwords⟩ :=
    List.mem_map.mp ((mem_checkFilter hfilters h.kind).mpr ⟨operand, hdefault⟩)
  obtain ⟨severity, message, rfl, -⟩ := reports_filter hfilters d hd
  rw [Engine.output_eq]
  refine ⟨_, List.mem_flatMap.mpr ⟨m, hm, List.mem_flatMap.mpr ⟨filterRule filters, h.kind ▸ hr,
    List.mem_map.mpr ⟨_, hd, rfl⟩⟩⟩, hwords, rfl, rfl⟩

end

/-! ## Reports -/

variable {id source : Text} {inputs : List Input} {root : Node}

/-- At every moment of a walk, a name refers to its input exactly if the root scope still binds it
to the input and no node around hides it. -/
theorem meansInput_of_mem_moments {m : State × Node}
    (hm : m ∈ moments ⟨(v.context id inputs).scope, []⟩ root) :
    ∃ t, m.1.scope = some t ∧ ∀ name, t.MeansInput name ↔
      t.RootInput name ∧ ∀ p ∈ m.1.ancestors, ¬ t.Hides p name := by
  obtain ⟨before, -, ht, -⟩ := operations_of_mem_moments (t := v.tracker inputs) rfl hm
  have houter : (v.tracker inputs).outer = [] := by
    rw [(v.continues_tracker inputs).outer, (new_scopes _ _ _).1]
  obtain ⟨u, hu, howned⟩ := owned_of_mem_moments (t := v.tracker inputs) rfl
    (v.foreign_tracker inputs root) (owned_of_outer houter []) m hm
  obtain rfl : u = (v.tracker inputs).run before := Option.some.inj (hu.symm.trans ht)
  rw [tracker_eq] at ht howned
  have hnamed := ((named_new (inputs.map (·.name)) defaultInjected v.reportUnusedInputs).run
    (v.known.map .inject)).run before
  have hinputs := ((rootsInputs_new (inputs.map (·.name)) defaultInjected v.reportUnusedInputs).run
    (v.known.map .inject)).run before
  exact ⟨_, ht, meansInput_iff hnamed hinputs howned⟩

/-- The `default` filters on names of boolean inputs are reported, and no other ones, whatever these
names refer to.  At each of them, the name refers to the input exactly if the root scope still binds
it to the input and no node around hides it. -/
theorem boolean_default_by_name (hv : ofOptions o = .ok v) {r : TemplateReport}
    (hr : v.checkTemplate id source inputs = .ok r) :
    let start : State := ⟨(v.context id inputs).scope, []⟩
    (∀ d ∈ r.diagnostics, d.message = booleanWords →
      ∃ root, parseTemplate v.limit source = .ok root ∧ ∃ m ∈ moments start root,
        SaysBoolean m.2 d ∧ ∃ operand, DefaultsBoolean (v.context id inputs) m.2 operand) ∧
    ∀ root, parseTemplate v.limit source = .ok root → ∀ m ∈ moments start root,
      ∀ operand, DefaultsBoolean (v.context id inputs) m.2 operand →
        (("filter" : Text) ∉ o.disabledRules → ∃ d ∈ r.diagnostics, SaysBoolean m.2 d) ∧
        ∃ t, m.1.scope = some t ∧ (t.MeansInput operand.name ↔
          t.RootInput operand.name ∧ ∀ p ∈ m.1.ancestors, ¬ t.Hides p operand.name) := by
  intro start
  refine ⟨fun d hd hwords => ?_, fun root hroot m hm operand hdefault => ⟨fun henabled => ?_, ?_⟩⟩
  · obtain ⟨root, hroot, found, hfound, excerpt, rfl⟩ :=
      mem_output_of_words hr hd (hwords ▸ begins_booleanWords) (by decide)
    obtain ⟨m, hm, hsaid, hdefault⟩ := defaultsBoolean_of_mem_output hv hfound hwords
    exact ⟨root, hroot, m, hm, ⟨hsaid.message, hsaid.line, hsaid.column⟩, hdefault⟩
  · obtain ⟨found, hfound, hsaid⟩ : ∃ found ∈ v.engine.output (v.context id inputs) root,
        SaysBoolean m.2 found := says_of_defaultsBoolean hv henabled hm hdefault
    obtain ⟨d, hd, excerpt, rfl⟩ := exists_of_mem_output hr hroot hfound
    exact ⟨_, hd, hsaid.message, hsaid.line, hsaid.column⟩
  · obtain ⟨t, ht, hiff⟩ := meansInput_of_mem_moments hm
    exact ⟨t, ht, hiff operand.name⟩

/-- A boolean input that nothing hides. -/
theorem boolean_default_by_name_input :
    let source : Text := "\x7b\x7b flag|default(1) \x7d\x7d"
    let inputs : List Input := [⟨"flag", "boolean"⟩]
    ∃ v r, ofOptions .default = .ok v ∧ v.checkTemplate [] source inputs = .ok r ∧
      ∃ d ∈ r.diagnostics, d.message = booleanWords ∧ ∃ (m : State × Node) (operand : Node),
        SaysBoolean m.2 d ∧ DefaultsBoolean (v.context [] inputs) m.2 operand := by
  intro source inputs
  let v := plain [] false
  have hv : ofOptions .default = .ok v := ofOptions_plain [] false
  have hfound : (v.checkTemplate [] source inputs).toOption.map
      (·.diagnostics.any (·.message == booleanWords)) = some true := by
    decide +kernel
  obtain ⟨r, hr, hfound⟩ := ok_of_toOption_map hfound
  obtain ⟨d, hd, hwords⟩ := List.any_eq_true.mp hfound
  obtain ⟨root, -, m, -, hsays, operand, hdefault⟩ :=
    (boolean_default_by_name hv hr).1 d hd (eq_of_beq hwords)
  exact ⟨v, r, hv, hr, d, hd, eq_of_beq hwords, m, operand, hsays, hdefault⟩

/-- The target of a loop is reported when a boolean input has its name. -/
theorem boolean_default_by_name_target :
    let source : Text :=
      "\x7b% for flag in items %\x7d\x7b\x7b flag|default(1) \x7d\x7d\x7b% endfor %\x7d"
    let inputs : List Input := [⟨"flag", "boolean"⟩, ⟨"items", "list"⟩]
    ∃ v r root, ofOptions .default = .ok v ∧ v.checkTemplate [] source inputs = .ok r ∧
      parseTemplate v.limit source = .ok root ∧
      ∃ m ∈ moments ⟨(v.context [] inputs).scope, []⟩ root, ∃ d ∈ r.diagnostics,
        SaysBoolean m.2 d ∧ m.2.kind = .filter ∧ ∃ operand t, m.2.child? .node = some operand ∧
          m.1.scope = some t ∧ t.kind? operand.name = some .target := by
  intro source inputs
  let v := plain [] false
  have hv : ofOptions .default = .ok v := ofOptions_plain [] false
  have hreport : (v.checkTemplate [] source inputs).toOption.map (·.diagnostics.any fun d =>
      d.message == booleanWords && d.line == 1 && d.column == 32) = some true := by
    decide +kernel
  have hwalk : (parseTemplate v.limit source).toOption.map (fun root =>
      (moments ⟨(v.context [] inputs).scope, []⟩ root).any fun m =>
        m.2.location == ⟨1, 32⟩ && m.2.kind == .filter && (m.2.child? .node).any fun operand =>
          m.1.scope.any fun t => t.kind? operand.name == some .target) = some true := by
    decide +kernel
  obtain ⟨r, hr, hreport⟩ := ok_of_toOption_map hreport
  obtain ⟨d, hd, hsays⟩ := List.any_eq_true.mp hreport
  obtain ⟨root, hroot, hwalk⟩ := ok_of_toOption_map hwalk
  obtain ⟨m, hm, hfilter⟩ := List.any_eq_true.mp hwalk
  simp only [Bool.and_eq_true, beq_iff_eq] at hsays hfilter
  obtain ⟨⟨hwords, hline⟩, hcolumn⟩ := hsays
  obtain ⟨⟨hlocation, hkind⟩, htarget⟩ := hfilter
  obtain ⟨operand, hoperand, htarget⟩ := (Option.any_eq_true ..).mp htarget
  obtain ⟨t, ht, htarget⟩ := (Option.any_eq_true ..).mp htarget
  have hline : d.line = m.2.location.line := by rw [hlocation, hline]
  have hcolumn : d.column = m.2.location.column := by rw [hlocation, hcolumn]
  exact ⟨v, r, root, hv, hr, hroot, m, hm, d, hd, ⟨hwords, hline, hcolumn⟩, hkind, operand, t,
    hoperand, ht, eq_of_beq htarget⟩

end Validator

end TwigLint
