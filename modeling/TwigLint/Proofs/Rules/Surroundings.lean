import TwigLint.Proofs.Rules.Messages
import TwigLint.Proofs.Scope.Layout

/-! # What the built-in rules see

Besides the node that it looks at, a built-in rule sees a few facts about the scopes and about the
nodes around.  Contexts that agree on these facts get the same answers.
-/

namespace TwigLint

open Rules Tracker

/-- The rules see the same in both contexts when they look at the node. -/
structure Context.Resembles (node : Node) (ctx ctx' : Context) : Prop where
  id : ctx.id = ctx'.id
  inputs : ctx.inputs = ctx'.inputs
  rule : ctx.rule = ctx'.rule
  imported : ctx.isImported = ctx'.isImported
  known : ctx.knows = ctx'.knows
  hint : Rules.didYouMean ctx = Rules.didYouMean ctx'
  defaulted : underDefault ctx = underDefault ctx'
  guarded : isGuarded ctx node = isGuarded ctx' node
  negated : parentIs ctx .unary "not" = parentIs ctx' .unary "not"
  conjoined : parentIs ctx .binary "and" = parentIs ctx' .binary "and"

namespace Rules

/-- The rule gives the same answer where it sees the same. -/
def Steady (r : Rule) : Prop :=
  ∀ {node : Node} {ctx ctx' : Context}, Context.Resembles node ctx ctx' →
    r.check ctx node = r.check ctx' node

section

variable {node : Node} {ctx ctx' : Context} (h : Context.Resembles node ctx ctx')
include h

theorem report_congr : ctx.report = ctx'.report := by
  funext node severity message
  rw [Context.report, Context.report, h.id, h.rule]

theorem inputType_congr : ctx.inputType = ctx'.inputType := by
  funext name
  rw [Context.inputType, Context.inputType, h.inputs]

theorem classified_congr (table : Policy.Table) (name : Text) :
    classified table ctx node name = classified table ctx' node name := by
  simp only [classified, report_congr h]

theorem checkFilter_congr (table : Policy.Table) :
    checkFilter table ctx node = checkFilter table ctx' node := by
  have hchecks : ∀ entry ∈ filterChecks, ∀ piped,
      entry.2 ctx node piped = entry.2 ctx' node piped := by
    simp only [filterChecks, List.forall_mem_cons, List.not_mem_nil, false_imp_iff, implies_true,
      and_true]
    simp only [checkAbs, checkAddClass, checkCleanId, checkDefault, checkSetAttribute, checkTrans,
      report_congr h, inputType_congr h, implies_true, and_self]
  unfold checkFilter
  rw [classified_congr h]
  split
  · rfl
  · congr 1
    cases node.child? .node with
    | none => rfl
    | some piped =>
      cases hlookup : filterChecks.lookup node.name with
      | none => rfl
      | some check =>
        obtain ⟨before, behind, htable, -⟩ := List.lookup_eq_some_iff.mp hlookup
        exact hchecks (node.name, check) (htable ▸ List.mem_append_right _ (List.mem_cons_self ..))
          piped

theorem checkFunction_congr (table : Policy.Table) :
    checkFunction table ctx node = checkFunction table ctx' node := by
  simp only [checkFunction, classified_congr h, h.imported, h.defaulted, report_congr h]

theorem checkName_congr (table : Policy.Table) :
    checkName table ctx node = checkName table ctx' node := by
  simp only [checkName, classified_congr h, h.known, h.guarded, h.hint, report_congr h]

theorem checkConditional_congr : checkConditional ctx node = checkConditional ctx' node := by
  simp only [checkConditional, report_congr h]

theorem checkTest_congr : checkTest ctx node = checkTest ctx' node := by
  simp only [checkTest, h.defaulted, h.negated, h.conjoined, report_congr h]

theorem checkStatement_congr : checkStatement ctx node = checkStatement ctx' node := by
  simp only [checkStatement, report_congr h]

theorem checkAccess_congr : checkAccess ctx node = checkAccess ctx' node := by
  have hcall : isMacroCall ctx node = isMacroCall ctx' node := by
    simp only [isMacroCall, h.imported]
  simp only [checkAccess, hcall, report_congr h]

end

theorem builtIn_steady (filters functions names : Policy.Table) :
    ∀ entry ∈ builtIn filters functions names, Steady entry.2 := by
  simp only [builtIn, List.forall_mem_cons, List.not_mem_nil, false_imp_iff, implies_true,
    and_true]
  exact ⟨fun h => congrArg Except.ok (checkFilter_congr h filters),
    fun h => congrArg Except.ok (checkFunction_congr h functions),
    fun h => congrArg Except.ok (checkConditional_congr h),
    fun h => congrArg Except.ok (checkTest_congr h),
    fun h => congrArg Except.ok (checkStatement_congr h),
    fun h => congrArg Except.ok (checkAccess_congr h),
    fun h => congrArg Except.ok (checkName_congr h names)⟩

/-- Every rule of a registry that can be built is steady. -/
theorem registry_steady {overlays : Overlays} {disabled : List Text} {r : Registry}
    (h : registry overlays disabled = .ok r) : ∀ entry ∈ r.entries, Steady entry.2 := by
  obtain ⟨filters, functions, names, -, -, -, hrules⟩ := builtIn_of_registry h
  intro entry hentry
  obtain ⟨kinds, -, hmem⟩ := hrules entry hentry
  exact builtIn_steady filters functions names _ hmem

end Rules

/-! ## Surroundings -/

/-- The node is what `??` stands for. -/
def Node.coalesces (n : Node) : Bool := n.kind == .conditional && n.boolAttr .nullCoalesce

/-- The same default filter, if any, and the same `??` are around. -/
structure SameOutlook (around around' : List Node) : Prop where
  default : (around.find? (isFilter "default")).isSome =
    (around'.find? (isFilter "default")).isSome
  coalescing : around.find? Node.coalesces = around'.find? Node.coalesces

theorem SameOutlook.refl (around : List Node) : SameOutlook around around := ⟨rfl, rfl⟩

theorem SameOutlook.trans {a b c : List Node} (hab : SameOutlook a b) (hbc : SameOutlook b c) :
    SameOutlook a c := ⟨hab.default.trans hbc.default, hab.coalescing.trans hbc.coalescing⟩

/-- Other nodes do not matter. -/
theorem SameOutlook.skip {node : Node} (hfilter : isFilter "default" node = false)
    (hcoalesces : node.coalesces = false) (around : List Node) :
    SameOutlook (node :: around) around := by
  refine ⟨?_, ?_⟩
  · rw [List.find?_cons, hfilter]
  · rw [List.find?_cons, hcoalesces]

theorem SameOutlook.cons {around around' : List Node} (h : SameOutlook around around')
    (node : Node) : SameOutlook (node :: around) (node :: around') := by
  refine ⟨?_, ?_⟩
  · rw [List.find?_cons, List.find?_cons]
    cases isFilter "default" node
    · exact h.default
    · rfl
  · rw [List.find?_cons, List.find?_cons, h.coalescing]

section

variable (ctx : Context) {t t' : Tracker} {around around' : List Node} {node : Node}
  (hlayout : SameLayout t t') (houtlook : SameOutlook around around')
include hlayout houtlook

/-- Where the scopes look the same and the nodes further around are the same to the rules, it
remains to compare the node right around. -/
theorem resembles_of_outlook
    (hguarded : isGuarded { ctx with ancestors := around } node =
      isGuarded { ctx with ancestors := around' } node)
    (hnegated : parentIs { ctx with ancestors := around } .unary "not" =
      parentIs { ctx with ancestors := around' } .unary "not")
    (hconjoined : parentIs { ctx with ancestors := around } .binary "and" =
      parentIs { ctx with ancestors := around' } .binary "and") :
    Context.Resembles node { ctx with scope := some t, ancestors := around }
      { ctx with scope := some t', ancestors := around' } where
  id := rfl
  inputs := rfl
  rule := rfl
  imported := by
    funext name
    exact hlayout.isImported name
  known := by
    funext name
    exact hlayout.knows name
  hint := by
    funext name
    simp only [Rules.didYouMean, Option.map_some, hlayout.didYouMean]
  defaulted := houtlook.default
  guarded := hguarded
  negated := hnegated
  conjoined := hconjoined

theorem resembles_of_parent (hparent : around.head? = around'.head?) :
    Context.Resembles node { ctx with scope := some t, ancestors := around }
      { ctx with scope := some t', ancestors := around' } := by
  refine resembles_of_outlook ctx hlayout houtlook ?_ ?_ ?_
  · have hnearest := houtlook.coalescing
    unfold Node.coalesces at hnearest
    simp only [isGuarded, Context.parent?, Context.nearest?, hparent, hnearest]
  · simp only [parentIs, Context.parent?, hparent]
  · simp only [parentIs, Context.parent?, hparent]

end

end TwigLint
