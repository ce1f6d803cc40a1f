import TwigLint.Proofs.Scope.Resolution
import TwigLint.Proofs.Rules.Registry

/-! # Rules that break off

A rule that breaks off at some nodes changes what it contributes there, and nothing else: the walk
comes to the same nodes in the same states, all other rules find what they found, and each
contribution that is lost gives way to one critical diagnostic.
-/

namespace TwigLint

open ScopedWalk

/-! ## Contributions -/

/-- The context in which the rules look at a node at some moment of a walk. -/
def Context.atMoment (ctx : Context) (m : State × Node) : Context :=
  { ctx with
    scope := (m.1.update fun t => t.onEnter m.2 m.1.ancestors).scope
    ancestors := m.1.ancestors }

/-- What a rule contributes to the diagnostics about a node. -/
def Rule.contribution (r : Rule) (ctx : Context) (node : Node) : List Diagnostic :=
  CheckRun.diagnostics ctx.id ⟨r.name, node, r.check { ctx with rule := r.name } node⟩

namespace Engine

/-- The rules that are run at nodes of a kind, in their order. -/
def rulesAt (e : Engine) (kind : Kind) : List Rule :=
  (e.registry.rulesFor kind).filter fun r => !e.disabled.contains r.name

/-- The rules that are run at nodes of a kind are registered for it, or for every kind. -/
theorem entry_of_mem_rulesAt {e : Engine} {kind : Kind} {r : Rule} (h : r ∈ e.rulesAt kind) :
    (kind, r) ∈ e.registry.entries ∨ (.any, r) ∈ e.registry.entries := by
  have hregistered {kind : Kind} (h : r ∈ e.registry.registered kind) :
      (kind, r) ∈ e.registry.entries := by
    obtain ⟨entry, hentry, rfl⟩ := List.mem_map.mp h
    obtain ⟨hentry, hkind⟩ := List.mem_filter.mp hentry
    rwa [← eq_of_beq hkind]
  have hfor := (List.mem_filter.mp h).1
  rw [Registry.rulesFor_eq, Registry.resolve] at hfor
  split at hfor
  · exact .inr (hregistered hfor)
  · exact (List.mem_append.mp hfor).imp hregistered hregistered

theorem mem_rulesAt {e : Engine} {kind : Kind} {r : Rule} (h : r ∈ e.rulesAt kind) :
    ∃ entry ∈ e.registry.entries, entry.2 = r :=
  (entry_of_mem_rulesAt h).elim (fun h => ⟨_, h, rfl⟩) fun h => ⟨_, h, rfl⟩

/-- The diagnostics of walking a tree, in the order in which they are found. -/
def output (e : Engine) (ctx : Context) (root : Node) : List Diagnostic :=
  (e.visit ctx root).2.flatMap (·.diagnostics ctx.id)

/-- The diagnostics are the contributions of all rules at all moments of the walk. -/
theorem output_eq (e : Engine) (ctx : Context) (root : Node) :
    e.output ctx root = (moments ⟨ctx.scope, ctx.ancestors⟩ root).flatMap fun m =>
      (e.rulesAt m.2.kind).flatMap fun r => r.contribution (ctx.atMoment m) m.2 := by
  have hruns : (e.visit ctx root).2 = (moments ⟨ctx.scope, ctx.ancestors⟩ root).flatMap
      (observed fun scope ancestors node => e.checkNode { ctx with scope, ancestors } node) :=
    visit_observations _ _ root
  rw [output, hruns, List.flatMap_assoc]
  congr 1
  funext m
  rw [observed, checkNode, List.flatMap_map]
  rfl

end Engine

/-! ## Replacing a rule -/

/-- The rule, breaking off with a reason wherever a condition holds. -/
def Rule.failingWhere (r : Rule) (fails : Context → Node → Bool) (reason : Text) : Rule :=
  { r with check := fun ctx node => if fails ctx node then .error reason else r.check ctx node }

/-- The registry with the rules that `picked` picks replaced by others. -/
def Registry.replace (r : Registry) (picked : Rule → Bool) (f : Rule → Rule) : Registry :=
  { r with
    entries := r.entries.map fun (kind, rule) => (kind, if picked rule then f rule else rule) }

/-- What stands in a report for a rule that broke off at a node. -/
def Rule.failureNotice (r : Rule) (id : Text) (node : Node) (reason : Text) : Diagnostic :=
  ⟨id, node.location.line, node.location.column, .critical,
    "Rule '" ++ r.name ++ "' failed: " ++ reason, .template, r.name, []⟩

/-- A rule that answers contributes its answer, in its own name where a finding has no other. -/
theorem Rule.contribution_of_ok {r : Rule} {ctx : Context} {node : Node} {ds : List Diagnostic}
    (h : r.check { ctx with rule := r.name } node = .ok ds) :
    r.contribution ctx node =
      ds.map fun d => if d.rule.isEmpty then { d with rule := r.name } else d := by
  rw [contribution, h]
  rfl

/-- A rule that breaks off contributes the notice of it. -/
theorem Rule.contribution_of_error {r : Rule} {ctx : Context} {node : Node} {reason : Text}
    (h : r.check { ctx with rule := r.name } node = .error reason) :
    r.contribution ctx node = [r.failureNotice ctx.id node reason] := by
  rw [contribution, h]
  rfl

/-- What a rule contributes is in its answer, or is the notice that there is none. -/
theorem Rule.mem_contribution {r : Rule} {ctx : Context} {node : Node} {d : Diagnostic} :
    d ∈ r.contribution ctx node ↔
      (∃ ds, r.check { ctx with rule := r.name } node = .ok ds ∧
          ∃ found ∈ ds,
            (if found.rule.isEmpty then { found with rule := r.name } else found) = d) ∨
        ∃ reason, r.check { ctx with rule := r.name } node = .error reason ∧
          d = r.failureNotice ctx.id node reason := by
  cases h : r.check { ctx with rule := r.name } node with
  | ok ds => simp [contribution_of_ok h]
  | error reason => simp [contribution_of_error h]

@[simp] theorem Rule.name_failingWhere (r : Rule) (fails : Context → Node → Bool) (reason : Text) :
    (r.failingWhere fails reason).name = r.name := rfl

theorem Rule.contribution_failingWhere (r : Rule) (fails : Context → Node → Bool) (reason : Text)
    (ctx : Context) (node : Node) :
    (r.failingWhere fails reason).contribution ctx node =
      if fails { ctx with rule := r.name } node then [r.failureNotice ctx.id node reason]
      else r.contribution ctx node := by
  by_cases h : fails { ctx with rule := r.name } node
  · rw [if_pos h]
    exact contribution_of_error (if_pos h)
  · rw [if_neg h, contribution, contribution, failingWhere]
    simp only [h, Bool.false_eq_true, if_false]

theorem Registry.registered_replace (r : Registry) (picked : Rule → Bool) (f : Rule → Rule)
    (kind : Kind) :
    (r.replace picked f).registered kind =
      (r.registered kind).map fun rule => if picked rule then f rule else rule := by
  simp only [registered, replace, List.filter_map, List.map_map]
  rfl

theorem Registry.rulesFor_replace (r : Registry) (picked : Rule → Bool) (f : Rule → Rule)
    (kind : Kind) :
    (r.replace picked f).rulesFor kind =
      (r.rulesFor kind).map fun rule => if picked rule then f rule else rule := by
  rw [rulesFor_eq, rulesFor_eq]
  unfold resolve
  split
  · exact r.registered_replace picked f .any
  · rw [registered_replace, registered_replace, List.map_append]

namespace Engine

/-- The same rules are run after a replacement that keeps their names, each as replaced. -/
theorem rulesAt_replace (e : Engine) (picked : Rule → Bool) {f : Rule → Rule}
    (hname : ∀ r, (f r).name = r.name) (kind : Kind) :
    rulesAt { e with registry := e.registry.replace picked f } kind =
      (e.rulesAt kind).map fun rule => if picked rule then f rule else rule := by
  have hkept : (fun r : Rule => !e.disabled.contains r.name) ∘
      (fun rule => if picked rule then f rule else rule) =
        fun r : Rule => !e.disabled.contains r.name := by
    funext r
    by_cases h : picked r <;> simp [h, hname]
  rw [rulesAt, Registry.rulesFor_replace, List.filter_map, hkept, rulesAt]

/-- Faults are isolated.  When a rule is replaced by one that breaks off wherever a condition holds
and is the same elsewhere, each of its contributions there gives way to one critical diagnostic at
the node, with the reason and the name of the rule; all other contributions are as they were, in
their order, and the walk ends in the same context. -/
theorem failing_rule_isolated (e : Engine) (ctx : Context) (root : Node) (picked : Rule → Bool)
    (fails : Context → Node → Bool) (reason : Text) :
    let failing : Engine :=
      { e with registry := e.registry.replace picked fun r => r.failingWhere fails reason }
    let moments := moments ⟨ctx.scope, ctx.ancestors⟩ root
    e.output ctx root = moments.flatMap (fun m =>
      (e.rulesAt m.2.kind).flatMap fun r => r.contribution (ctx.atMoment m) m.2) ∧
    failing.output ctx root = moments.flatMap (fun m =>
      (e.rulesAt m.2.kind).flatMap fun r =>
        if picked r && fails { ctx.atMoment m with rule := r.name } m.2 then
          [r.failureNotice ctx.id m.2 reason]
        else r.contribution (ctx.atMoment m) m.2) ∧
    (failing.visit ctx root).1 = (e.visit ctx root).1 := by
  intro failing moments
  have hrules (kind : Kind) : failing.rulesAt kind = (e.rulesAt kind).map fun rule =>
      if picked rule then rule.failingWhere fails reason else rule :=
    e.rulesAt_replace picked (fun r => r.name_failingWhere fails reason) kind
  refine ⟨e.output_eq ctx root, ?_, ?_⟩
  · rw [output_eq]
    congr 1
    funext m
    rw [hrules, List.flatMap_map]
    congr 1
    funext r
    by_cases hpicked : picked r
    · simp only [hpicked, if_true, Bool.true_and]
      exact r.contribution_failingWhere fails reason (ctx.atMoment m) m.2
    · simp only [hpicked, Bool.false_and, Bool.false_eq_true, if_false]
  · rw [visit_context, visit_context]

end Engine

end TwigLint
