import TwigLint.Proofs.Rules.Registry

/-! # Messages of the built-in rules

Every built-in rule reports at the node that it looks at, in its own name, and nothing as critical.
The first words of a message tell which rule it is from: what the messages of one rule begin with is
no beginning of what those of another rule begin with.
-/

namespace TwigLint.Rules

/-! ## First words -/

/-- The first words of the messages that a name table has about names of a family. -/
def tableOpenings (family : Text) : List Text :=
  [.retire, .warn, .forbid, .gray].filterMap fun verdict =>
    (Policy.Verdict.heading? verdict).map fun heading => heading ++ " " ++ family ++ ": '"

/-- The rules with the first words of their messages. -/
def openingTable : List (Text × List Text) :=
  [("filter", "Filter '" :: "Don't use 'default' filter" :: tableOpenings filterTable.family),
    ("function", "Function '" :: tableOpenings functionTable.family),
    ("conditional", ["No chained ternary", "Ternary test",
      "Use \x60|default(foo)\x60 filter instead of shorthand ternary"]),
    ("test", ["Keep components sandboxed", "Equivalent to", "Not needed", "The exact same",
      "Use \x60|default(foo)\x60 filter instead of null ternary"]),
    ("statement", ["Bad architecture", "Careful with do", "Cache", "Use slots"]),
    ("get_attr", ["Direct method calls", "Keep slots opaque", "Breaking the flow"]),
    ("name", "Unknown variable: '" :: tableOpenings variableTable.family),
    (unusedName, ["Unused variables: "])]

/-- The first words of the messages of a rule. -/
def openings (rule : Text) : List Text := (openingTable.lookup rule).getD []

/-- The message begins with one of the given texts. -/
def begins (os : List Text) (message : Text) : Bool := os.any fun o => o.isPrefixOf message

theorem begins_append {os : List Text} {message : Text} (h : begins os message = true)
    (t : Text) : begins os (message ++ t) = true := by
  obtain ⟨o, ho, hprefix⟩ := List.any_eq_true.mp h
  have hall := (List.isPrefixOf_iff_prefix.mp hprefix).trans (List.prefix_append message t)
  exact List.any_eq_true.mpr ⟨o, ho, List.isPrefixOf_iff_prefix.mpr hall⟩

theorem openingTable_apart : ∀ a ∈ openingTable, ∀ b ∈ openingTable, a.1 ≠ b.1 →
    ∀ o ∈ a.2, ∀ o' ∈ b.2, o.isPrefixOf o' = false := by
  decide +kernel

theorem mem_openingTable {rule o : Text} (h : o ∈ openings rule) :
    ∃ os, (rule, os) ∈ openingTable ∧ o ∈ os := by
  unfold openings at h
  cases hlookup : openingTable.lookup rule with
  | none =>
    rw [hlookup] at h
    cases h
  | some os =>
    obtain ⟨before, behind, htable, -⟩ := List.lookup_eq_some_iff.mp hlookup
    rw [hlookup] at h
    exact ⟨os, htable ▸ List.mem_append_right _ (List.mem_cons_self ..), h⟩

/-- The first words of different rules have nothing in common. -/
theorem openings_apart {a b o o' : Text} (hne : a ≠ b) (ho : o ∈ openings a)
    (ho' : o' ∈ openings b) : ¬ o <+: o' := by
  obtain ⟨os, hos, ho⟩ := mem_openingTable ho
  obtain ⟨os', hos', ho'⟩ := mem_openingTable ho'
  intro hprefix
  have hfalse := openingTable_apart _ hos _ hos' hne o ho o' ho'
  rw [List.isPrefixOf_iff_prefix.mpr hprefix] at hfalse
  cases hfalse

/-- Messages of different rules differ. -/
theorem openings_disjoint {a b message : Text} (ha : begins (openings a) message = true)
    (hb : begins (openings b) message = true) : a = b := by
  by_contra hne
  obtain ⟨o, ho, hprefix⟩ := List.any_eq_true.mp ha
  obtain ⟨o', ho', hprefix'⟩ := List.any_eq_true.mp hb
  rcases List.prefix_or_prefix_of_prefix (List.isPrefixOf_iff_prefix.mp hprefix)
    (List.isPrefixOf_iff_prefix.mp hprefix') with h | h
  · exact openings_apart hne ho ho' h
  · exact openings_apart (Ne.symm hne) ho' ho h

/-! ## Findings -/

/-- The findings are reported at the node, less than critical, with messages that begin with one of
the given texts. -/
def Reports (os : List Text) (ctx : Context) (node : Node) (ds : List Diagnostic) : Prop :=
  ∀ d ∈ ds, ∃ severity message, d = ctx.report node severity message ∧
    begins os message = true ∧ severity.atLeast .critical = false

section

variable {os : List Text} {ctx : Context} {node : Node} {ds es : List Diagnostic}

theorem reports_nil : Reports os ctx node [] := by
  intro d hd
  cases hd

theorem reports_single (severity : Severity) {message : Text} (h : begins os message = true)
    (hseverity : severity.atLeast .critical = false) :
    Reports os ctx node [ctx.report node severity message] := by
  intro d hd
  exact ⟨severity, message, List.mem_singleton.mp hd, h, hseverity⟩

theorem Reports.mono {os' : List Text} (h : Reports os ctx node ds) (hos : ∀ o ∈ os, o ∈ os') :
    Reports os' ctx node ds := by
  intro d hd
  obtain ⟨severity, message, heq, hbegins, hseverity⟩ := h d hd
  obtain ⟨o, ho, hprefix⟩ := List.any_eq_true.mp hbegins
  exact ⟨severity, message, heq, List.any_eq_true.mpr ⟨o, hos o ho, hprefix⟩, hseverity⟩

theorem Reports.append (hd : Reports os ctx node ds) (he : Reports os ctx node es) :
    Reports os ctx node (ds ++ es) := by
  intro d hmem
  rcases List.mem_append.mp hmem with h | h
  · exact hd d h
  · exact he d h

theorem Reports.ite {c : Prop} [Decidable c] (hd : Reports os ctx node ds)
    (he : Reports os ctx node es) : Reports os ctx node (if c then ds else es) := by
  split
  · exact hd
  · exact he

theorem reports_when {c : Prop} [Decidable c] (severity : Severity) {message : Text}
    (h : begins os message = true) (hseverity : severity.atLeast .critical = false) :
    Reports os ctx node (if c then [ctx.report node severity message] else []) :=
  .ite (reports_single severity h hseverity) reports_nil

/-! ## Name tables -/

theorem begins_answer (t : Policy.Table) (verdict : Policy.Verdict) (name hint : Text)
    (hfamily : t.family ≠ []) (h : (t.answer verdict name hint).isReportable = true) :
    begins (tableOpenings t.family) (t.answer verdict name hint).message = true := by
  have hopens {heading : Text} (hmem : heading ++ " " ++ t.family ++ ": '" ∈
      tableOpenings t.family) :
      begins (tableOpenings t.family) (t.reported verdict heading name hint).message = true := by
    have hempty : t.family.isEmpty = false := by simpa using hfamily
    simp only [Policy.Table.reported, hempty, Bool.false_eq_true, if_false]
    refine begins_append (begins_append (begins_append ?_ _) _) _
    exact List.any_eq_true.mpr ⟨_, hmem, List.isPrefixOf_iff_prefix.mpr (List.prefix_refl _)⟩
  unfold Policy.Table.answer at h ⊢
  cases verdict with
  | unclassified | ignore | allow => cases h
  | retire | warn | forbid | gray =>
    refine hopens ?_
    simp [tableOpenings, Policy.Verdict.heading?]

theorem begins_classify (t : Policy.Table) (name : Text) (hfamily : t.family ≠ [])
    (h : (t.classify name).isReportable = true) :
    begins (tableOpenings t.family) (t.classify name).message = true := by
  have hanswer (verdict : Policy.Verdict) (hint : Text) :=
    begins_answer t verdict name hint hfamily
  revert h
  fun_cases Policy.Table.classify t name <;> exact hanswer _ _

/-- What a name table reports is an error or a warning. -/
theorem severity_answer (t : Policy.Table) (verdict : Policy.Verdict) (name hint : Text)
    (h : (t.answer verdict name hint).isReportable = true) :
    (t.answer verdict name hint).severity.atLeast .critical = false := by
  cases verdict with
  | unclassified | ignore | allow => cases h
  | retire | warn | forbid | gray => rfl

theorem severity_classify (t : Policy.Table) (name : Text)
    (h : (t.classify name).isReportable = true) :
    (t.classify name).severity.atLeast .critical = false := by
  revert h
  fun_cases Policy.Table.classify t name <;> exact severity_answer t _ name _

theorem reports_classified {table base : Policy.Table} (h : table.family = base.family)
    (hfamily : base.family ≠ []) (hos : ∀ o ∈ tableOpenings base.family, o ∈ os) (name : Text) :
    Reports os ctx node (classified table ctx node name) := by
  rw [← h] at hfamily hos
  unfold classified
  by_cases hreport : (table.classify name).isReportable = true
  · rw [if_pos hreport]
    refine reports_single _ ?_ (severity_classify table name hreport)
    obtain ⟨o, ho, hprefix⟩ := List.any_eq_true.mp (begins_classify table name hfamily hreport)
    exact List.any_eq_true.mpr ⟨o, hos o ho, hprefix⟩
  · rw [if_neg hreport]
    exact reports_nil

/-! ## The rules -/

theorem reports_abs (piped : Node) :
    Reports ["Filter '"] ctx node (checkAbs ctx node piped) := by
  refine reports_when _ ?_ rfl
  exact begins_append (begins_append (by decide) _) _

theorem reports_addClass (piped : Node) :
    Reports ["Filter '"] ctx node (checkAddClass ctx node piped) :=
  reports_when _ (by decide) rfl

theorem reports_cleanId (piped : Node) :
    Reports ["Filter '"] ctx node (checkCleanId ctx node piped) :=
  reports_when _ (by decide) rfl

theorem reports_default (piped : Node) :
    Reports (openings "filter") ctx node (checkDefault ctx node piped) := by
  refine .append ?_ ?_
  · exact .ite (reports_single _ (by decide) rfl) (reports_when _ (by decide) rfl)
  · cases argument? node 0 with
    | none => exact reports_nil
    | some arg =>
      exact .ite (reports_single _ (by decide) rfl) (reports_when _ (by decide) rfl)

theorem reports_setAttribute (piped : Node) :
    Reports ["Filter '"] ctx node (checkSetAttribute ctx node piped) := by
  refine .append (reports_when _ ?_ rfl) ?_
  · exact begins_append (begins_append (by decide) _) _
  · cases argument? node 1 with
    | none => exact reports_nil
    | some arg =>
      exact .ite (reports_single _ (by decide) rfl) (reports_when _ (by decide) rfl)

theorem reports_trans (piped : Node) :
    Reports ["Filter '"] ctx node (checkTrans ctx node piped) :=
  .ite (reports_single _ (by decide) rfl) <| .ite (reports_single _ (by decide) rfl) <|
    reports_when _ (by decide) rfl

/-- The messages of every check of single filters but that of `default` begin with these words. -/
theorem reports_filterChecks (piped : Node) : ∀ entry ∈ filterChecks,
    entry.1 = "default" ∧ entry.2 = checkDefault ∨
      Reports ["Filter '"] ctx node (entry.2 ctx node piped) := by
  simp only [filterChecks, List.forall_mem_cons, List.not_mem_nil, false_imp_iff, implies_true,
    and_true]
  exact ⟨.inr (reports_abs piped), .inr (reports_addClass piped), .inr (reports_cleanId piped),
    .inl trivial, .inr (reports_setAttribute piped), .inr (reports_trans piped),
    .inr (reports_trans piped)⟩

theorem mem_filterChecks {name : Text} {check : Context → Node → Node → List Diagnostic}
    (h : filterChecks.lookup name = some check) : (name, check) ∈ filterChecks := by
  obtain ⟨before, behind, htable, -⟩ := List.lookup_eq_some_iff.mp h
  exact htable ▸ List.mem_append_right _ (List.mem_cons_self ..)

theorem reports_filter {table : Policy.Table} (h : table.family = filterTable.family) :
    Reports (openings "filter") ctx node (checkFilter table ctx node) := by
  refine .ite reports_nil (.append (reports_classified h (by decide) (by decide) _) ?_)
  split
  · rename_i piped check _ hlookup
    rcases reports_filterChecks piped _ (mem_filterChecks hlookup) with ⟨-, hdefault⟩ | hreports
    · rw [show check = checkDefault from hdefault]
      exact reports_default piped
    · exact hreports.mono (by decide)
  · exact reports_nil

theorem reports_function {table : Policy.Table} (h : table.family = functionTable.family) :
    Reports (openings "function") ctx node (checkFunction table ctx node) := by
  refine .ite reports_nil (.append (reports_classified h (by decide) (by decide) _) ?_)
  · exact reports_when _ (by decide) rfl

theorem reports_name {table : Policy.Table} (h : table.family = variableTable.family) :
    Reports (openings "name") ctx node (checkName table ctx node) := by
  refine .ite reports_nil (.append (reports_classified h (by decide) (by decide) _) ?_)
  · refine .ite reports_nil (reports_single _ ?_ rfl)
    exact begins_append (begins_append (begins_append (by decide) _) _) _

theorem reports_conditional :
    Reports (openings "conditional") ctx node (checkConditional ctx node) := by
  unfold checkConditional
  cases node.child? .expr3 with
  | none => exact reports_nil
  | some expr3 =>
    refine .ite reports_nil (.append (.append ?_ ?_) ?_)
    · exact reports_when _ (by decide) rfl
    · exact reports_when _ (by decide) rfl
    · exact reports_when _ (by decide) rfl

theorem reports_test : Reports (openings "test") ctx node (checkTest ctx node) := by
  refine .ite (reports_single _ (by decide) rfl) (.ite (reports_single _ (by decide) rfl) ?_)
  refine .ite ?_ ?_
  · exact .ite (reports_single _ (by decide) rfl) (reports_single _ (by decide) rfl)
  · refine .ite (.ite reports_nil (reports_single _ (by decide) rfl)) ?_
    exact reports_when _ (by decide) rfl

theorem reports_statement : Reports (openings "statement") ctx node (checkStatement ctx node) := by
  unfold checkStatement
  split
  · exact reports_single _ (by decide) rfl
  · exact .ite reports_nil (reports_single _ (by decide) rfl)
  · exact reports_single _ (by decide) rfl
  · exact reports_single _ (by decide) rfl
  · exact reports_single _ (by decide) rfl
  · exact reports_single _ (by decide) rfl
  · exact reports_nil

theorem reports_access : Reports (openings "get_attr") ctx node (checkAccess ctx node) := by
  refine .append (.ite ?_ ?_) ?_
  · exact .ite reports_nil (reports_single _ (by decide) rfl)
  · exact reports_when _ (by decide) rfl
  · exact reports_when _ (by decide) rfl

end

/-- The rule never breaks off, and it reports at the node with its own first words. -/
def Speaks (r : Rule) : Prop :=
  ∀ ctx node, ∃ ds, r.check ctx node = .ok ds ∧ Reports (openings r.name) ctx node ds

theorem builtIn_speaks {filters functions names : Policy.Table}
    (hfilters : filters.family = filterTable.family)
    (hfunctions : functions.family = functionTable.family)
    (hnames : names.family = variableTable.family) :
    ∀ entry ∈ builtIn filters functions names, Speaks entry.2 := by
  simp only [builtIn, List.forall_mem_cons, List.not_mem_nil, false_imp_iff, implies_true,
    and_true]
  exact ⟨fun _ _ => ⟨_, rfl, reports_filter hfilters⟩,
    fun _ _ => ⟨_, rfl, reports_function hfunctions⟩, fun _ _ => ⟨_, rfl, reports_conditional⟩,
    fun _ _ => ⟨_, rfl, reports_test⟩, fun _ _ => ⟨_, rfl, reports_statement⟩,
    fun _ _ => ⟨_, rfl, reports_access⟩, fun _ _ => ⟨_, rfl, reports_name hnames⟩⟩

/-! ## Tables that overlays change -/

theorem family_foldl {α : Type} {f : Policy.Table → α → Policy.Table}
    (h : ∀ t a, (f t a).family = t.family) (l : List α) (t : Policy.Table) :
    (l.foldl f t).family = t.family := by
  induction l generalizing t with
  | nil => rfl
  | cons a l ih => rw [List.foldl_cons, ih, h]

theorem family_merge (t : Policy.Table) (o : Policy.Overlay) : (t.merge o).family = t.family := by
  change (List.foldl Policy.Table.addForbid _ _).family = _
  calc
    _ = _ := family_foldl (f := .addForbid) (fun _ _ => rfl) ..
    _ = _ := family_foldl (f := .addWarn) (fun _ _ => rfl) ..
    _ = _ := family_foldl (f := .addRetire) (fun _ _ => rfl) ..
    _ = _ := family_foldl (f := .addAllow) (fun _ _ => rfl) ..
    _ = _ := family_foldl (f := .addIgnore) (fun _ _ => rfl) ..

theorem family_tableFor {overlays : Overlays} {name : Text} {base t : Policy.Table}
    (h : tableFor overlays name base = .ok t) : t.family = base.family := by
  unfold tableFor at h
  simp only at h
  split at h
  · cases h
  · cases h
    split
    · split
      · rfl
      · exact family_merge ..
    · rfl

theorem family_changedTables {overlays : Overlays}
    {t : Policy.Table × Policy.Table × Policy.Table} (h : changedTables overlays = .ok t) :
    t.1.family = filterTable.family ∧ t.2.1.family = functionTable.family ∧
      t.2.2.family = variableTable.family := by
  unfold changedTables at h
  cases hfind : overlays.find? fun o => !tableNames.contains o.1 with
  | some o => simp only [hfind] at h; cases h
  | none =>
    cases hfilters : tableFor overlays "filter" filterTable with
    | error e => simp only [hfind, hfilters] at h; cases h
    | ok filters =>
      cases hfunctions : tableFor overlays "function" functionTable with
      | error e => simp only [hfind, hfilters, hfunctions] at h; cases h
      | ok functions =>
        cases hnames : tableFor overlays "name" variableTable with
        | error e => simp only [hfind, hfilters, hfunctions, hnames] at h; cases h
        | ok names =>
          simp only [hfind, hfilters, hfunctions, hnames] at h
          cases h
          exact ⟨family_tableFor hfilters, family_tableFor hfunctions, family_tableFor hnames⟩

theorem mem_assembled {filters functions names : Policy.Table} {disabled : List Text}
    {entry : Kind × Rule} (h : entry ∈ (assembled filters functions names disabled).entries) :
    ∃ kinds, entry.1 ∈ kinds ∧ (kinds, entry.2) ∈ builtIn filters functions names := by
  obtain ⟨⟨kinds, rule⟩, hmem, hentry⟩ := List.mem_flatMap.mp (List.mem_filter.mp h).1
  obtain ⟨kind, hkind, rfl⟩ := List.mem_map.mp hentry
  exact ⟨kinds, hkind, hmem⟩

/-- A registry that can be built has the built-in rules, with tables for the same families of
names. -/
theorem assembled_of_registry {overlays : Overlays} {disabled : List Text} {r : Registry}
    (h : registry overlays disabled = .ok r) :
    ∃ filters functions names : Policy.Table, filters.family = filterTable.family ∧
      functions.family = functionTable.family ∧ names.family = variableTable.family ∧
      r = assembled filters functions names disabled := by
  rw [registry_eq overlays (valid_of_registry h)] at h
  cases ht : changedTables overlays with
  | error e =>
    rw [ht] at h
    cases h
  | ok t =>
    rw [ht] at h
    cases h
    obtain ⟨hfilters, hfunctions, hnames⟩ := family_changedTables ht
    exact ⟨t.1, t.2.1, t.2.2, hfilters, hfunctions, hnames, rfl⟩

/-- The rules of a registry that can be built look at the same kinds of nodes as the built-in
ones. -/
theorem builtIn_of_registry {overlays : Overlays} {disabled : List Text} {r : Registry}
    (h : registry overlays disabled = .ok r) :
    ∃ filters functions names : Policy.Table, filters.family = filterTable.family ∧
      functions.family = functionTable.family ∧ names.family = variableTable.family ∧
      ∀ entry ∈ r.entries, ∃ kinds, entry.1 ∈ kinds ∧
        (kinds, entry.2) ∈ builtIn filters functions names := by
  obtain ⟨filters, functions, names, hfilters, hfunctions, hnames, rfl⟩ := assembled_of_registry h
  exact ⟨filters, functions, names, hfilters, hfunctions, hnames, fun entry => mem_assembled⟩

/-- Every rule of a registry that can be built speaks for itself. -/
theorem registry_speaks {overlays : Overlays} {disabled : List Text} {r : Registry}
    (h : registry overlays disabled = .ok r) : ∀ entry ∈ r.entries, Speaks entry.2 := by
  obtain ⟨filters, functions, names, hfilters, hfunctions, hnames, hrules⟩ := builtIn_of_registry h
  intro entry hentry
  obtain ⟨kinds, -, hmem⟩ := hrules entry hentry
  exact builtIn_speaks hfilters hfunctions hnames _ hmem

end TwigLint.Rules
