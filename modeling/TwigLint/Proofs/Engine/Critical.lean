import TwigLint.Proofs.Engine.Parts
import TwigLint.Proofs.Engine.Traversal

/-! # Critical findings

Critical means that a template does not parse.  The built-in rules never break off and never find
anything critical, nothing that is missing in a tree is made use of, and the finding about a
template that does not parse is the only one about it.
-/

namespace TwigLint

open Rules Diagnostic

/-! ## Missing nodes -/

/-- What must be there. -/
def present {α : Type} : Option α → Except Crash α
  | some a => .ok a
  | none => .error .missingValue

namespace Tracker

/-- What the key of a pair binds, read step by step: a key is only made use of when it is a literal
text. -/
def readKey (pair : Node) : Except Crash (List ScopeOp) :=
  let key := pair.child? .key
  match key.bind (·.textAttr? .value) with
  | none => .ok []
  | some name =>
    if name.isEmpty || !key.any (·.isConstant) then .ok []
    else do return [.declareParam name (← present key).line]

/-- What the keys in the context of a tag bind, read step by step: the context is only made use of
when it is a hash. -/
def readKeys (tag : Node) : Except Crash (List ScopeOp) :=
  let hash := tag.child? .context
  if hash.any (·.kind == .hash) then do
    let bound ← (← present hash).children.mapM fun entry => readKey entry.2
    return bound.flatten
  else .ok []

theorem readKey_eq (pair : Node) :
    readKey pair =
      .ok ((hashKey? pair).toList.map fun key => .declareParam key.1 key.2) := by
  unfold readKey hashKey?
  cases pair.child? .key with
  | none => rfl
  | some key =>
    rcases Option.eq_none_or_eq_some (key.attr? .value) with hnone | ⟨value, hvalue⟩
    · simp [Node.textAttr?, Node.literal?, hnone]
    · by_cases hconstant : key.kind = .constant
      · cases value with
        | text t =>
          by_cases ht : t = [] <;>
            simp [Node.textAttr?, Node.literal?, hvalue, hconstant, ht, Node.isConstant, present,
              bind, Except.bind, pure, Except.pure]
        | null | bool | int | float =>
          simp [Node.textAttr?, Node.literal?, hvalue, hconstant]
      · cases value <;>
          simp [Node.textAttr?, Node.literal?, hvalue, hconstant, Node.isConstant]

theorem readKeys_eq (tag : Node) : readKeys tag = .ok (declareKeys (tag.child? .context)) := by
  unfold readKeys declareKeys
  cases tag.child? .context with
  | none => rfl
  | some hash =>
    by_cases hhash : hash.kind = .hash
    · have hread : hash.children.mapM (fun entry => readKey entry.2) = .ok (hash.children.map
          fun entry => (hashKey? entry.2).toList.map fun key => .declareParam key.1 key.2) := by
        simp only [readKey_eq]
        exact List.mapM_pure
      have hbound : (hash.children.map fun entry =>
          (hashKey? entry.2).toList.map fun key => ScopeOp.declareParam key.1 key.2).flatten =
            (hash.children.filterMap fun entry => hashKey? entry.2).map fun key =>
              .declareParam key.1 key.2 := by
        rw [← List.flatMap_def, List.filterMap_eq_flatMap_toList, List.map_flatMap]
      simp only [Option.any_some, hhash, beq_self_eq_true, if_true, present, bind, Except.bind,
        hread, pure, Except.pure, hbound]
    · simp [hhash]

end Tracker

/-- Nothing that is missing in a tree is made use of by a walk: there is a child in every slot that
it goes on to, and the keys of hashes can be read. -/
structure Node.Followable (root : Node) : Prop where
  child : ∀ n ∈ root.nodes, ∀ slot ∈ n.slots, n.hasChild slot = true
  keys : ∀ n ∈ root.nodes, Tracker.readKeys n = .ok (Tracker.declareKeys (n.child? .context))

theorem Node.followable (root : Node) : root.Followable where
  child n _ slot hslot := by
    obtain ⟨entry, hentry, rfl⟩ := List.mem_map.mp hslot
    exact hasChild_of_mem hentry
  keys n _ := Tracker.readKeys_eq n

/-! ## Severities -/

namespace Engine

variable {e : Engine}

/-- The built-in rules never break off. -/
theorem runs_ok (hspeaks : ∀ entry ∈ e.registry.entries, Speaks entry.2) (ctx : Context)
    (root : Node) : ∀ run ∈ (e.visit ctx root).2, ∃ ds, run.outcome = .ok ds := by
  intro run hrun
  rw [runs_visits] at hrun
  obtain ⟨v, -, hrun⟩ := List.mem_flatMap.mp hrun
  obtain ⟨r, hr, rfl⟩ := List.mem_map.mp hrun
  obtain ⟨entry, hentry, rfl⟩ := mem_rulesAt hr
  obtain ⟨ds, hds, -⟩ := hspeaks entry hentry { v.1 with rule := entry.2.name } v.2
  exact ⟨ds, hds⟩

/-- The built-in rules never find anything critical. -/
theorem output_severity (hspeaks : ∀ entry ∈ e.registry.entries, Speaks entry.2) (ctx : Context)
    (root : Node) : ∀ d ∈ e.output ctx root, d.severity.atLeast .critical = false := by
  intro d hd
  rw [output_eq] at hd
  obtain ⟨m, -, hd⟩ := List.mem_flatMap.mp hd
  obtain ⟨r, hr, hd⟩ := List.mem_flatMap.mp hd
  obtain ⟨entry, hentry, rfl⟩ := mem_rulesAt hr
  obtain ⟨severity, message, rfl, -, hseverity⟩ :=
    (hspeaks entry hentry).contribution (ctx.atMoment m) m.2 d hd
  exact hseverity

end Engine

namespace Validator

variable {v : Validator} {id source : Text} {inputs : List Input}

theorem unusedVariables_severity {scope : Option Tracker} {d : Diagnostic}
    (h : d ∈ unusedVariables id scope) : d.severity.atLeast .critical = false := by
  unfold unusedVariables at h
  split at h
  · cases h
  · cases h
  · rw [List.mem_singleton.mp h]
    rfl

/-- Nothing critical is found about a template that parses. -/
theorem checkTree_severity (hspeaks : ∀ entry ∈ v.registry.entries, Speaks entry.2) (root : Node) :
    ∀ d ∈ (v.checkTree id inputs root).1, d.severity.atLeast .critical = false := by
  intro d hd
  rw [checkTree_eq] at hd
  rcases List.mem_append.mp hd with hd | hd
  · exact v.engine.output_severity hspeaks _ root d hd
  · split at hd
    · cases hd
    · exact unusedVariables_severity hd

/-! ## Reports -/

/-- The report on a source is decided by its parsing: there is a critical finding exactly when it
does not parse, and then there is only one finding about the template, which has the message and the
position of the error. -/
structure Decided (limit : Nat) (id source : Text) (ds : List Diagnostic) : Prop where
  critical : (∃ d ∈ ds, d.severity = .critical) ↔ ∃ e, parseTemplate limit source = .error e
  only : ∀ e, parseTemplate limit source = .error e → ∃ excerpt,
    ds.filter (·.origin == .template) =
      [⟨id, e.location.line, e.location.column, .critical, e.message, .template, "parse", excerpt⟩]

theorem ne_critical {severity : Severity} (h : severity.atLeast .critical = false) :
    severity ≠ .critical := by
  rintro rfl
  cases h

/-- What is found about a template decides the report, also with the lines of source. -/
theorem decided_of_shown (hspeaks : ∀ entry ∈ v.registry.entries, Speaks entry.2)
    {es : List Diagnostic} (h : List.Forall₂ Shown (v.findings id inputs source) es) :
    Decided v.limit id source es := by
  cases hparse : parseTemplate v.limit source with
  | error e =>
    rw [findings_error hparse] at h
    cases h with
    | cons hshown hrest =>
      cases hrest
      obtain ⟨excerpt, rfl⟩ := hshown
      constructor
      · exact ⟨fun _ => ⟨e, hparse⟩, fun _ => ⟨_, List.mem_singleton_self _, rfl⟩⟩
      · intro e' he'
        rw [hparse] at he'
        cases he'
        exact ⟨excerpt, rfl⟩
  | ok root =>
    rw [findings_ok hparse] at h
    constructor
    · constructor
      · rintro ⟨d, hd, hcritical⟩
        obtain ⟨x, hx, excerpt, rfl⟩ := mem_of_shown h d hd
        exact absurd hcritical (ne_critical (checkTree_severity hspeaks root x hx))
      · rintro ⟨e, he⟩
        rw [hparse] at he
        cases he
    · intro e he
      rw [hparse] at he
      cases he

variable {limit : Nat} {ds es : List Diagnostic}

/-- Findings about a definition do not matter. -/
theorem Decided.append (h : Decided limit id source es) (hds : ∀ d ∈ ds, d.OfDefinition) :
    Decided limit id source (ds ++ es) where
  critical := by
    rw [← h.critical]
    constructor
    · rintro ⟨d, hd, hcritical⟩
      rcases List.mem_append.mp hd with hd | hd
      · exact absurd hcritical (ne_critical (hds d hd).2)
      · exact ⟨d, hd, hcritical⟩
    · rintro ⟨d, hd, hcritical⟩
      exact ⟨d, List.mem_append_right _ hd, hcritical⟩
  only e he := by
    have hnone : ds.filter (·.origin == .template) = [] := by
      apply List.filter_eq_nil_iff.mpr
      intro d hd
      rw [(hds d hd).1]
      decide
    rw [List.filter_append, hnone, List.nil_append]
    exact h.only e he

/-- Arranging does not matter. -/
theorem Decided.arranged (h : Decided limit id source ds)
    (horigin : ∀ d ∈ ds, d.origin = .schema ∨ d.origin = .template) :
    Decided limit id source (arranged ds) where
  critical := by
    rw [← h.critical]
    constructor
    · rintro ⟨d, hd, hcritical⟩
      exact ⟨d, mem_of_mem_arranged hd, hcritical⟩
    · rintro ⟨d, hd, hcritical⟩
      obtain ⟨e, he, hkey⟩ := exists_key_arranged hd
      simp only [key, Prod.mk.injEq] at hkey
      exact ⟨e, he, hkey.2.2.1.trans hcritical⟩
  only e he := by
    obtain ⟨excerpt, honly⟩ := h.only e he
    have hsame : ∀ a ∈ ds, ∀ b ∈ ds, a.key = b.key →
        (a.origin == .template) = (b.origin == .template) := by
      intro a ha b hb hkey
      simp only [key, Prod.mk.injEq] at hkey
      have hname := hkey.2.2.2.2.1
      rcases horigin a ha with ha | ha <;> rcases horigin b hb with hb | hb <;>
        rw [ha, hb] at hname ⊢
      · cases hname
      · cases hname
    have hperm := (arranged_perm ds).filter (·.origin == .template)
    rw [← dedup_filter hsame, honly] at hperm
    exact ⟨excerpt, List.perm_singleton.mp hperm⟩

/-- The diagnostics in an answer about a source are decided, and there is an answer exactly when the
lines of source can be shown. -/
structure Answers (v : Validator) (id : Text) (inputs : List Input) (source : Text)
    (answer : Except Crash (List Diagnostic)) : Prop where
  answered : (∃ ds, answer = .ok ds) ↔ ∀ d ∈ v.findings id inputs source, v.Shows source d
  decided : ∀ ds, answer = .ok ds → Decided v.limit id source ds

theorem shown_origin (hspeaks : ∀ entry ∈ v.registry.entries, Speaks entry.2)
    (h : List.Forall₂ Shown (v.findings id inputs source) es) : ∀ d ∈ es, d.origin = .template := by
  intro d hd
  obtain ⟨x, hx, excerpt, rfl⟩ := mem_of_shown h d hd
  exact (findings_origin hspeaks hx).2

section Answers

variable (hspeaks : ∀ entry ∈ v.registry.entries, Speaks entry.2)
  (hlength : v.excerptLength < 0x8000000000000000)
  (hsource : source.length + 1 < 0x8000000000000000)
include hspeaks hlength hsource

/-- An answer that has what is found about a template is decided when what else is done to it does
not matter. -/
theorem answers_of_shown {answer : Except Crash (List Diagnostic)}
    (finish : List Diagnostic → List Diagnostic)
    (hanswer : ∀ ds, answer = .ok ds ↔
      ∃ es, v.excerpted source (v.findings id inputs source) = .ok es ∧ finish es = ds)
    (hfinish : ∀ es, List.Forall₂ Shown (v.findings id inputs source) es →
      Decided v.limit id source es → Decided v.limit id source (finish es)) :
    v.Answers id inputs source answer where
  answered := by
    rw [← excerpted_iff hsource hlength]
    constructor
    · rintro ⟨ds, hds⟩
      obtain ⟨es, hes, -⟩ := (hanswer ds).mp hds
      exact ⟨es, hes⟩
    · rintro ⟨es, hes⟩
      exact ⟨finish es, (hanswer _).mpr ⟨es, hes, rfl⟩⟩
  decided ds hds := by
    obtain ⟨es, hes, rfl⟩ := (hanswer ds).mp hds
    have hshown := excerpted_shown hes
    exact hfinish es hshown (decided_of_shown hspeaks hshown)

theorem answers_template :
    v.Answers id inputs source ((v.checkTemplate id source inputs).map (·.diagnostics)) := by
  apply answers_of_shown hspeaks hlength hsource fun es => es
  · intro ds
    rw [map_ok_iff, checkTemplate_iff]
    simp
  · intro es _ hdecided
    exact hdecided

theorem answers_source :
    v.Answers [] [] source ((v.checkSource source).map (·.diagnostics)) := by
  apply answers_of_shown hspeaks hlength hsource arranged
  · intro ds
    rw [map_ok_iff, checkSource_iff, excerpted_eq]
    rfl
  · intro es hshown hdecided
    exact hdecided.arranged fun d hd => .inr (shown_origin hspeaks hshown d hd)

theorem answers_component (hschema : v.checksSchema = true) {d : Definition} {path : Text}
    (hd : d.template = some (path, source)) :
    v.Answers (checkedId id d) d.inputs source
      ((v.checkComponent id d).map (·.diagnostics)) := by
  have hfindings : v.templateFindings id d = v.findings (checkedId id d) d.inputs source := by
    rw [templateFindings, hd]
  have hdefinition : ∀ x ∈ definitionFindings id d, x.OfDefinition :=
    fun x hx => (of_mem_definitionFindings hx).2
  apply answers_of_shown hspeaks hlength hsource
    fun es => arranged (definitionFindings id d ++ es)
  · intro ds
    rw [map_ok_iff, checkComponent_iff hschema, hfindings, templateSource, hd]
    rfl
  · intro es hshown hdecided
    apply (hdecided.append hdefinition).arranged
    intro x hx
    rcases List.mem_append.mp hx with hx | hx
    · exact .inl (hdefinition x hx).1
    · exact .inr (shown_origin hspeaks hshown x hx)

end Answers

/-- Critical means that a source does not parse: this decides the report on it, as a bare template
or as that of a component, whatever the inputs are.  No rule breaks off at any node of any tree,
and nothing that is missing there is made use of.  There is a report exactly when the numbers of the
shown lines do not overflow.  The lines of the source have 64-bit numbers. -/
theorem critical_iff_unparsed {o : LintOptions} {v : Validator} (hv : ofOptions o = .ok v)
    (hlength : o.excerptLength < 0x8000000000000000) {source : Text}
    (hsource : source.length + 1 < 0x8000000000000000) :
    (∀ id inputs, v.Answers id inputs source
      ((v.checkTemplate id source inputs).map (·.diagnostics))) ∧
    v.Answers [] [] source ((v.checkSource source).map (·.diagnostics)) ∧
    (∀ id d path, d.template = some (path, source) →
      v.Answers (checkedId id d) d.inputs source
        ((v.checkComponent id d).map (·.diagnostics))) ∧
    ∀ root : Node, root.Followable ∧
      ∀ ctx, ∀ run ∈ (v.engine.visit ctx root).2, ∃ ds, run.outcome = .ok ds := by
  obtain ⟨hspeaks, hschema, hbound⟩ := ofOptions_built hv
  have hlength : v.excerptLength < 0x8000000000000000 := by omega
  refine ⟨fun id inputs => ?_, ?_, fun id d path hd => ?_, fun root => ⟨?_, fun ctx => ?_⟩⟩
  · exact answers_template hspeaks hlength hsource
  · exact answers_source hspeaks hlength hsource
  · exact answers_component hspeaks hlength hsource hschema hd
  · exact root.followable
  · exact v.engine.runs_ok hspeaks ctx root

/-- A variable that is not closed. -/
theorem critical_iff_unparsed_unclosed :
    let source : Text := "a\n\x7b\x7b b"
    ∃ v e r, ofOptions .default = .ok v ∧ parseTemplate v.limit source = .error e ∧
      v.checkSource source = .ok r ∧ Decided v.limit [] source r.diagnostics ∧
      ∃ d ∈ r.diagnostics, d.severity = .critical := by
  intro source
  have hlines : source.length + 1 < 0x8000000000000000 := by decide
  have hunparsed : (ofOptions .default).toOption.map (fun v =>
      (parseTemplate v.limit source).isOk) = some false := by
    decide +kernel
  obtain ⟨v, hv, hfails⟩ := ok_of_toOption_map hunparsed
  obtain ⟨e, he⟩ := error_of_isOk hfails
  obtain ⟨-, ⟨hanswered, hdecided⟩, -, -⟩ := critical_iff_unparsed hv (by decide) hlines
  have hshort : v.excerptLength + source.length < 0x8000000000000000 := by
    have hlength : v.excerptLength ≤ 1 := (ofOptions_built hv).2.2
    have hsource : source.length = 6 := by decide
    omega
  obtain ⟨ds, hds⟩ := hanswered.mpr fun x _ => shows_of_small hlines hshort x
  obtain ⟨r, hr, rfl⟩ := map_ok_iff.mp hds
  have hreport := hdecided _ hds
  exact ⟨v, e, r, hv, he, hr, hreport, hreport.critical.mpr ⟨e, he⟩⟩

/-- There is no report on a source that does not parse below its first line when as many lines as
possible are shown. -/
theorem critical_iff_unparsed_overflow :
    let source : Text := "\n\x7b\x7b"
    ∃ v e c, ofOptions { LintOptions.default with excerptLength := 0x7fffffffffffffff } = .ok v ∧
      parseTemplate v.limit source = .error e ∧ v.checkSource source = .error c := by
  intro source
  let o : LintOptions := { LintOptions.default with excerptLength := 0x7fffffffffffffff }
  have hfails : (ofOptions o).toOption.map (fun v =>
      ((parseTemplate v.limit source).isOk, (v.checkSource source).isOk)) =
        some (false, false) := by
    decide +kernel
  obtain ⟨v, hv, hboth⟩ := ok_of_toOption_map hfails
  obtain ⟨hparse, hcheck⟩ := Prod.mk.inj hboth
  obtain ⟨e, he⟩ := error_of_isOk hparse
  obtain ⟨c, hc⟩ := error_of_isOk hcheck
  exact ⟨v, e, c, hv, he, hc⟩

end Validator

end TwigLint
