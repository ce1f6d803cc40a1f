import TwigLint.Proofs.Engine.Disabling
import TwigLint.Proofs.Engine.Once
import TwigLint.Proofs.Scope.Moments

/-! # Copies in reports

That operands of `??` and `?:` are stored and walked several times does not show in a report: the
same is found in every copy, walking a further one changes neither names nor the report about unused
ones, and the report is that of a walk that comes to every operand once.
-/

namespace TwigLint

open Rules Tracker ScopedWalk

/-! ## Trackers along a walk -/

/-- The trackers along a walk come from new ones when the first does. -/
theorem ScopedWalk.reachable_of_mem_moments {root : Node} {s : State} {t : Tracker}
    (hs : s.scope = some t) (ht : t.Reachable) :
    ∀ m ∈ moments s root, ∃ u, m.1.scope = some u ∧ u.Reachable := by
  intro m hm
  obtain ⟨before, -, hscope, -⟩ := operations_of_mem_moments hs hm
  exact ⟨_, hscope, ht.run before⟩

theorem Tracker.reachable_inject {t : Tracker} (h : t.Reachable) (names : List Text) :
    (names.foldl inject t).Reachable := by
  induction names generalizing t with
  | nil => exact h
  | cons name names ih => exact ih (h.run [.inject name])

theorem Tracker.foreign_inject {t : Tracker} {n : Node} (h : Foreign t n) (names : List Text) :
    Foreign (names.foldl inject t) n := by
  induction names generalizing t with
  | nil => exact h
  | cons name names ih => exact ih h

/-! ## Duplicates and lines of source -/

/-- What is done to each finding commutes with dropping duplicates when it keeps what makes findings
duplicates and goes wrong for all duplicates of a finding alike. -/
theorem Diagnostic.dedup_mapM {f : Diagnostic → Except Crash Diagnostic}
    (hkey : ∀ d e, f d = .ok e → e.key = d.key)
    (hok : ∀ d d' e, f d = .ok e → d'.key = d.key → ∃ e', f d' = .ok e') (ds : List Diagnostic) :
    (dedup ds).mapM f = (ds.mapM f).map dedup := by
  induction ds with
  | nil => rfl
  | cons d ds ih =>
    rw [dedup_cons, List.mapM_cons, List.mapM_cons]
    cases hd : f d with
    | error c => rfl
    | ok e =>
      have hrest : ((dedup ds).filter fun a => a.key != d.key).mapM f =
          ((dedup ds).mapM f).map (List.filter fun a => a.key != d.key) :=
        mapM_filter (fun a b hab => by rw [hkey a b hab]) fun a _ ha =>
          hok d a e hd (by simpa using ha)
      rw [hrest, ih]
      cases ds.mapM f with
      | error c => rfl
      | ok es =>
        rw [← hkey d e hd]
        exact congrArg Except.ok (dedup_cons e es).symm

namespace Validator

theorem shown_key {v : Validator} {source : Text} {d e : Diagnostic}
    (h : v.shown source d = .ok e) : e.key = d.key := by
  obtain ⟨t, rfl⟩ := shown_of_ok h
  rfl

/-- Whether the lines of source can be taken depends on their numbers. -/
theorem shown_ok_of_line {v : Validator} {source : Text} {d e : Diagnostic}
    (h : v.shown source d = .ok e) {d' : Diagnostic} (hline : d'.line = d.line) :
    ∃ e', v.shown source d' = .ok e' := by
  unfold shown at h ⊢
  rw [hline]
  split at h
  · obtain ⟨t, ht, -⟩ := Lexing.bind_eq_ok h
    rw [if_pos ‹_›, ht]
    exact ⟨_, rfl⟩
  · rw [if_neg ‹_›]
    exact ⟨d', rfl⟩

/-- Dropping duplicates commutes with showing findings. -/
theorem dedup_excerpted (v : Validator) (source : Text) (ds : List Diagnostic) :
    v.excerpted source (Diagnostic.dedup ds) = (v.excerpted source ds).map Diagnostic.dedup := by
  rw [excerpted_eq, excerpted_eq]
  exact Diagnostic.dedup_mapM (fun d e => shown_key)
    (fun d d' e h hkey => shown_ok_of_line h (congrArg Prod.fst hkey)) ds

/-- Findings that are the same but for duplicates are arranged alike when they are shown, whatever
stands before them. -/
theorem arranged_excerpted {v : Validator} {ds ds' : List Diagnostic}
    (h : Diagnostic.dedup ds = Diagnostic.dedup ds') (source : Text) (before : List Diagnostic) :
    ((v.excerpted source ds).map fun es => arranged (before ++ es)) =
      (v.excerpted source ds').map fun es => arranged (before ++ es) := by
  have hdrop (shown : Except Crash (List Diagnostic)) :
      (shown.map fun es => arranged (before ++ es)) =
        (shown.map Diagnostic.dedup).map fun es => arranged (before ++ es) := by
    cases shown with
    | error c => rfl
    | ok es =>
      have hsame : Diagnostic.dedup (before ++ Diagnostic.dedup es) =
          Diagnostic.dedup (before ++ es) :=
        Diagnostic.dedup_congr rfl (Diagnostic.dedup_dedup es)
      exact congrArg (fun kept => Except.ok (Diagnostic.sort kept)) hsame.symm
  rw [hdrop, ← dedup_excerpted, h, dedup_excerpted, ← hdrop]

end Validator

/-! ## Copies -/

namespace Engine

/-- Where a walk comes to `??` or `?:`, the copies of the operand do not matter: it comes to each
in turn, finds the same in all of them, and after the first one changes neither names nor the report
about unused ones. -/
structure IgnoresCopies (e : Engine) (ctx : Context) (m : State × Node) (operand : Node)
    (states : List State) : Prop where
  stored : ∀ path ∈ m.2.copies, m.2.at? path = some operand
  places : states.map (·.ancestors) = m.2.copies.map (m.2.around m.1.ancestors)
  visited : (states.map fun s => (s, operand)).Sublist (moments m.1 m.2)
  same : ∃ ds, ∀ s ∈ states,
    e.output { ctx with scope := s.scope, ancestors := s.ancestors } operand = ds
  idle : ∀ s ∈ states.tail, ∃ t t', s.scope = some t ∧
    (e.visit { ctx with scope := s.scope, ancestors := s.ancestors } operand).1.scope = some t' ∧
    KeepsNames t t' ∧ t'.unused = t.unused

theorem ignores_copies {e : Engine} {ctx : Context}
    (hsteady : ∀ entry ∈ e.registry.entries, Steady entry.2) {Q : Token → Prop}
    {c : Parser.Category} {m : State × Node} (hn : Parser.Built Q c m.2) (hcopies : m.2.copies ≠ [])
    {t : Tracker} (hscope : m.1.scope = some t) (ht : t.Reachable) (hforeign : Foreign t m.2) :
    ∃ operand states, e.IgnoresCopies ctx m operand states := by
  obtain ⟨⟨scope, around⟩, n⟩ := m
  obtain rfl : scope = some t := hscope
  obtain ⟨operand, hstored, ⟨entry, hentry, rfl, hbuilt⟩, hvisited, ds, hsame⟩ :=
    copies_visited hsteady ctx hn hcopies t around
  have hoperand := hforeign.child hentry
  refine ⟨entry.2, TwigLint.visits entry.2 t (n.copies.map (n.around around)), hstored,
    ancestors_visits .., hvisited, ⟨ds, fun s hs => ?_⟩, fun s hs => ?_⟩
  · obtain ⟨u, hu, hlayout, hplace⟩ := sameLayout_of_mem_visits hbuilt ht hoperand _ s hs
    rw [hu]
    exact hsame _ hplace hlayout
  · obtain ⟨u, hu, hkeeps, hunused⟩ := idle_visits hbuilt ht hoperand _ s hs
    refine ⟨u, u.walked s.ancestors entry.2, by rw [hu], ?_, hkeeps, hunused⟩
    rw [visit_context, hu]
    rfl

end Engine

/-! ## Reports -/

namespace Validator

/-- The tracker with which a walk starts. -/
def tracker (v : Validator) (inputs : List Input) : Tracker :=
  v.known.foldl inject (.new (inputs.map (·.name)) defaultInjected v.reportUnusedInputs)

theorem reachable_tracker (v : Validator) (inputs : List Input) : (v.tracker inputs).Reachable :=
  reachable_inject ⟨_, _, _, [], rfl⟩ v.known

theorem foreign_tracker (v : Validator) (inputs : List Input) (root : Node) :
    Foreign (v.tracker inputs) root :=
  foreign_inject (foreign_new _ _ _ root) v.known

theorem ofOptions_steady {o : LintOptions} {v : Validator} (h : ofOptions o = .ok v) :
    ∀ entry ∈ v.registry.entries, Steady entry.2 := by
  obtain ⟨r, hr, h⟩ := Lexing.bind_eq_ok h
  cases h
  exact registry_steady hr

/-- The findings about a tree when every operand is walked once. -/
def checkOnce (v : Validator) (id : Text) (inputs : List Input) (root : Node) : List Diagnostic :=
  let (t, found) := once (v.engine.finds (v.context id inputs)) (v.tracker inputs) [] [] root
  found ++ if v.disabled.contains unusedName then [] else unusedVariables id (some t)

/-- Walking every operand once finds the same but for duplicates. -/
theorem dedup_checkTree {v : Validator} (hsteady : ∀ entry ∈ v.registry.entries, Steady entry.2)
    {Q : Token → Prop} {c : Parser.Category} {root : Node} (hroot : Parser.Built Q c root)
    (id : Text) (inputs : List Input) : Diagnostic.dedup (v.checkTree id inputs root).1 =
      Diagnostic.dedup (v.checkOnce id inputs root) := by
  have hstart := v.reachable_tracker inputs
  have hwalk : v.engine.AlikeOnce (v.context id inputs) root :=
    Engine.alikeOnce_of_built hsteady hroot
  obtain ⟨halike, hfound⟩ := hwalk _ _ (.refl hstart) (v.foreign_tracker inputs root) []
  rw [checkTree_eq, Engine.visit_context]
  refine Diagnostic.dedup_congr hfound ?_
  have hunused : unusedVariables id (some ((v.tracker inputs).walked [] root)) =
      unusedVariables id (some (once (v.engine.finds (v.context id inputs)) (v.tracker inputs) [] []
        root).1) := by
    simp only [unusedVariables, Option.map_some, halike.unused]
  rw [← hunused]
  rfl

/-- Copies of operands are invisible in reports.  In every template that parses, a walk of `??`
comes to its left operand three times, and a walk of `?:` twice; it finds the same each time, and
after the first time changes neither names nor the report about unused ones.  Without duplicates,
the findings are those of walking every operand once, and so is what is shown of them behind any
other findings. -/
theorem copies_invisible {o : LintOptions} {v : Validator} (hv : ofOptions o = .ok v)
    {source : Text} {root : Node} (hroot : parseTemplate v.limit source = .ok root) (id : Text)
    (inputs : List Input) :
    let ctx := v.context id inputs
    (∀ m ∈ moments ⟨ctx.scope, ctx.ancestors⟩ root,
      (m.2.coalesces = true → ∃ l left right, m.2 = Parser.nullCoalesce l left right) ∧
      (m.2.copies ≠ [] → ∃ operand states, v.engine.IgnoresCopies ctx m operand states)) ∧
    Diagnostic.dedup (v.checkTree id inputs root).1 =
      Diagnostic.dedup (v.checkOnce id inputs root) ∧
    ∀ before, ((v.checkTemplate id source inputs).map fun r => arranged (before ++ r.diagnostics)) =
      (v.excerpted source (v.checkOnce id inputs root)).map fun es => arranged (before ++ es) := by
  intro ctx
  have hsteady := ofOptions_steady hv
  have hbuilt := built_of_parseTemplate hroot (Q := fun _ => True) fun _ _ _ _ => trivial
  have hdedup := dedup_checkTree hsteady hbuilt id inputs
  refine ⟨fun m hm => ⟨fun hcoalesces => ?_, fun hcopies => ?_⟩, hdedup, fun before => ?_⟩
  · obtain ⟨c, hnode⟩ := hbuilt.of_mem_nodes (mem_nodes_of_mem_moments hm)
    exact hnode.of_coalesces hcoalesces
  · obtain ⟨hmem, t, ht, hforeign, -⟩ := arrives_of_mem_moments (t := v.tracker inputs) rfl
      (v.foreign_tracker inputs root) (v.reachable_tracker inputs).valid m hm
    obtain ⟨u, hu, hreachable⟩ := reachable_of_mem_moments (t := v.tracker inputs) rfl
      (v.reachable_tracker inputs) m hm
    obtain rfl : t = u := Option.some.inj (ht ▸ hu)
    obtain ⟨c, hnode⟩ := hbuilt.of_mem_nodes hmem
    exact Engine.ignores_copies hsteady hnode hcopies ht hreachable hforeign
  · rw [← arranged_excerpted hdedup, checkTemplate, hroot]
    simp only
    cases v.excerpted source (v.checkTree id inputs root).1 with
    | error c => rfl
    | ok es => rfl

/-- A name with a fallback. -/
theorem copies_invisible_fallback :
    let source : Text := "\x7b\x7b a ?? b \x7d\x7d"
    ∃ v root, ofOptions .default = .ok v ∧ parseTemplate v.limit source = .ok root ∧
      (∃ m ∈ moments ⟨(v.context [] []).scope, []⟩ root, m.2.coalesces = true ∧
        ∃ operand states, v.engine.IgnoresCopies (v.context [] []) m operand states) ∧
      Diagnostic.dedup (v.checkTree [] [] root).1 =
        Diagnostic.dedup (v.checkOnce [] [] root) ∧
      ∀ before, ((v.checkTemplate [] source []).map fun r => arranged (before ++ r.diagnostics)) =
        (v.excerpted source (v.checkOnce [] [] root)).map fun es => arranged (before ++ es) := by
  intro source
  have hfound : (match ofOptions .default with
      | .ok v => match parseTemplate v.limit source with
        | .ok root => (moments ⟨(v.context [] []).scope, []⟩ root).any (·.2.coalesces)
        | .error _ => false
      | .error _ => false) = true := by decide +kernel
  cases hv : ofOptions .default with
  | error e =>
    rw [hv] at hfound
    cases hfound
  | ok v =>
    simp only [hv] at hfound
    cases hroot : parseTemplate v.limit source with
    | error e =>
      rw [hroot] at hfound
      cases hfound
    | ok root =>
      rw [hroot] at hfound
      obtain ⟨m, hm, hcoalesces⟩ := List.any_eq_true.mp hfound
      obtain ⟨hcopies, hreport⟩ := copies_invisible hv hroot [] []
      have hseveral : m.2.copies ≠ [] := by simp [Node.copies, hcoalesces]
      exact ⟨v, root, rfl, hroot, ⟨m, hm, hcoalesces, (hcopies m hm).2 hseveral⟩, hreport⟩

end Validator

end TwigLint
