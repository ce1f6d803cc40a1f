import TwigLint.Proofs.Rules.Registration

/-! # A registry that keeps tables

What a registry is asked for can be kept in tables instead of being read off the registrations: the
rules of each kind, what is known of each rule, and, once the registry is sealed, the rules that are
ready for a kind.  A registration brings the first two up to date, and sealing fills the third one.
The tables stay those of the registrations, so that both registries give the same answers.
-/

namespace TwigLint

namespace Registry

/-- A registry with its tables. -/
structure Stored where
  byKind : List (Kind × List Rule)
  definitions : List RuleInfo
  /-- The rules of a kind with those of every node, for a sealed registry. -/
  resolved : List (Kind × List Rule)
  frozen : Bool

/-- The table with one more rule for a kind. -/
def enter (kind : Kind) (rule : Rule) : List (Kind × List Rule) → List (Kind × List Rule)
  | [] => [(kind, [rule])]
  | entry :: rest =>
    if entry.1 = kind then (kind, entry.2 ++ [rule]) :: rest else entry :: enter kind rule rest

theorem lookup_enter_self (kind : Kind) (rule : Rule) (table : List (Kind × List Rule)) :
    (enter kind rule table).lookup kind = some ((table.lookup kind).getD [] ++ [rule]) := by
  induction table with
  | nil => simp [enter]
  | cons entry rest ih =>
    obtain ⟨other, rules⟩ := entry
    by_cases hother : other = kind
    · simp [enter, hother]
    · rw [enter, if_neg hother, List.lookup_cons, List.lookup_cons,
        beq_false_of_ne (Ne.symm hother)]
      exact ih

theorem lookup_enter_of_ne {kind k : Kind} (h : k ≠ kind) (rule : Rule)
    (table : List (Kind × List Rule)) : (enter kind rule table).lookup k = table.lookup k := by
  induction table with
  | nil => simp [enter, List.lookup_cons, beq_false_of_ne h]
  | cons entry rest ih =>
    obtain ⟨other, rules⟩ := entry
    rw [enter]
    by_cases hother : other = kind
    · simp [hother, List.lookup_cons, beq_false_of_ne h]
    · rw [if_neg hother, List.lookup_cons, List.lookup_cons, ih]

namespace Stored

/-! ## Keeping the tables -/

def empty : Stored := ⟨[], [], [], false⟩

/-- The rules registered for exactly this kind. -/
def under (s : Stored) (kind : Kind) : List Rule := (s.byKind.lookup kind).getD []

/-- The rules of a kind: those registered for it, then those of every node. -/
def resolve (s : Stored) (kind : Kind) : List Rule :=
  s.under kind ++ if kind = .any then [] else s.under .any

/-- The rules to run on a node. -/
def rulesFor (s : Stored) (kind : Kind) : List Rule :=
  if s.frozen then (s.resolved.lookup kind).getD (s.under .any) else s.resolve kind

/-- Number of rules. -/
def size (s : Stored) : Nat := s.definitions.length

/-- Registers a rule for a kind.  A registration that is refused leaves the tables alone. -/
def register (s : Stored) (kind : Kind) (rule : Option Rule) : Except RegistryError Stored :=
  if s.frozen then .error .frozen
  else
    match rule with
    | none => .error (.noRule kind)
    | some rule =>
      if (s.under kind).any (·.name == rule.name) then .error (.duplicate rule.name kind)
      else
        .ok { s with
          byKind := enter kind rule s.byKind
          definitions := note kind rule s.definitions }

/-- Forbids further registrations; the rules are made ready the first time. -/
def freeze (s : Stored) : Stored :=
  if s.frozen then s
  else
    let kinds := (s.byKind.map Prod.fst).filter fun kind => kind != .any
    { s with resolved := kinds.map fun kind => (kind, s.resolve kind), frozen := true }

/-- A registry that refuses a registration stays as it is. -/
def serve (s : Stored) : Request → Stored
  | .register kind rule => (s.register kind rule).toOption.getD s
  | .freeze => s.freeze

/-- A new registry after some requests. -/
def served (requests : List Request) : Stored := requests.foldl serve .empty

end Stored

/-! ## One more registration -/

theorem registered_concat (r : Registry) (kind : Kind) (rule : Rule) (k : Kind) :
    registered { r with entries := r.entries ++ [(kind, rule)] } k =
      r.registered k ++ if k = kind then [rule] else [] := by
  by_cases h : k = kind
  · simp [registered, h]
  · simp [registered, h, Ne.symm h]

theorem definitions_concat (r : Registry) (kind : Kind) (rule : Rule) :
    definitions { r with entries := r.entries ++ [(kind, rule)] } =
      note kind rule r.definitions := by
  rw [definitions, List.foldl_append]
  rfl

/-! ## Agreement -/

/-- The tables are those of the registrations. -/
structure Keeps (s : Stored) (r : Registry) : Prop where
  byKind : ∀ kind, s.byKind.lookup kind =
    if kind ∈ r.entries.map Prod.fst then some (r.registered kind) else none
  definitions : s.definitions = r.definitions
  resolved : r.frozen = true → ∀ kind, s.resolved.lookup kind = r.resolved.lookup kind
  frozen : s.frozen = r.frozen

/-- Both registries accept a registration and agree after it, or both refuse it for one reason. -/
inductive SameAnswer : Except RegistryError Stored → Except RegistryError Registry → Prop
  | accepted {s : Stored} {r : Registry} (h : Keeps s r) : SameAnswer (.ok s) (.ok r)
  | refused (e : RegistryError) : SameAnswer (.error e) (.error e)

namespace Keeps

variable {s : Stored} {r : Registry}

theorem under (h : Keeps s r) (kind : Kind) : s.under kind = r.registered kind := by
  rw [Stored.under, h.byKind]
  by_cases hkind : kind ∈ r.entries.map Prod.fst
  · rw [if_pos hkind, Option.getD_some]
  · rw [if_neg hkind, Option.getD_none, registered_eq_nil hkind]

theorem resolve (h : Keeps s r) (kind : Kind) : s.resolve kind = r.resolve kind := by
  rw [Stored.resolve, Registry.resolve, h.under, h.under]
  by_cases hany : kind = .any
  · rw [if_pos hany, if_pos hany, List.append_nil, hany]
  · rw [if_neg hany, if_neg hany]

/-- Rules are kept for the kinds that there are registrations for. -/
theorem mem_kinds (h : Keeps s r) (kind : Kind) :
    kind ∈ s.byKind.map Prod.fst ↔ kind ∈ r.entries.map Prod.fst := by
  have hsome : kind ∈ s.byKind.map Prod.fst ↔ (s.byKind.lookup kind).isSome := by
    simp [List.lookup_isSome_iff]
  rw [hsome, h.byKind]
  by_cases hkind : kind ∈ r.entries.map Prod.fst <;> simp [hkind]

theorem rulesFor (h : Keeps s r) (kind : Kind) : s.rulesFor kind = r.rulesFor kind := by
  rw [Stored.rulesFor, Registry.rulesFor, h.frozen, h.under, h.resolve]
  by_cases hfrozen : r.frozen = true
  · rw [if_pos hfrozen, if_pos hfrozen, h.resolved hfrozen]
  · rw [if_neg hfrozen, if_neg hfrozen]

theorem size (h : Keeps s r) : s.size = r.size := by
  rw [Stored.size, Registry.size, h.definitions]

theorem empty : Keeps Stored.empty Registry.empty where
  byKind _ := rfl
  definitions := rfl
  resolved _ _ := rfl
  frozen := rfl

/-- One more registration changes the tables of an open registry as it should. -/
theorem entered (h : Keeps s r) (hopen : r.frozen = false) (kind : Kind) (rule : Rule) :
    Keeps
      { s with
        byKind := enter kind rule s.byKind
        definitions := note kind rule s.definitions }
      { r with entries := r.entries ++ [(kind, rule)] } where
  byKind k := by
    have hkept : (s.byKind.lookup kind).getD [] = r.registered kind := h.under kind
    rw [registered_concat]
    by_cases hk : k = kind
    · rw [hk, lookup_enter_self, hkept]
      simp
    · rw [lookup_enter_of_ne hk, h.byKind, if_neg hk, List.append_nil]
      congr 1
      simp [hk]
  definitions := by rw [definitions_concat, h.definitions]
  resolved hfrozen := absurd hfrozen (by simp [hopen])
  frozen := h.frozen

theorem register (h : Keeps s r) (kind : Kind) (rule : Option Rule) :
    SameAnswer (s.register kind rule) (r.register kind rule) := by
  unfold Stored.register Registry.register
  by_cases hfrozen : s.frozen = true
  · rw [if_pos hfrozen, if_pos (h.frozen ▸ hfrozen)]
    exact .refused _
  · rw [if_neg hfrozen, if_neg (h.frozen ▸ hfrozen)]
    cases rule with
    | none => exact .refused _
    | some rule =>
      dsimp only
      rw [h.under]
      split
      · exact .refused _
      · exact .accepted (h.entered (h.frozen ▸ Bool.eq_false_iff.mpr hfrozen) kind rule)

/-- What is made ready is what the registrations give. -/
theorem freeze (h : Keeps s r) : Keeps s.freeze r.freeze := by
  rw [Stored.freeze, h.frozen]
  by_cases hfrozen : r.frozen = true
  · -- what was made ready the first time still holds, for nothing was registered since
    rw [if_pos hfrozen]
    exact ⟨h.byKind, h.definitions, fun _ => h.resolved hfrozen, h.frozen.trans hfrozen⟩
  · rw [if_neg hfrozen]
    refine ⟨h.byKind, h.definitions, fun _ kind => ?_, rfl⟩
    have hready : r.freeze.resolved.lookup kind = r.resolved.lookup kind := rfl
    rw [hready, lookup_resolved, lookup_tabulated, h.resolve]
    congr 1
    simp [← h.mem_kinds, and_comm]

theorem serve (h : Keeps s r) (request : Request) : Keeps (s.serve request) (r.serve request) := by
  cases request with
  | freeze => exact h.freeze
  | register kind rule =>
    have hsame := h.register kind rule
    rw [Stored.serve, Registry.serve]
    generalize s.register kind rule = answer, r.register kind rule = answer' at hsame
    cases hsame with
    | accepted hkeeps => exact hkeeps
    | refused => exact h

end Keeps

/-- The tables are kept along all requests. -/
theorem served_keeps (requests : List Request) :
    Keeps (Stored.served requests) (served requests) := by
  induction requests using List.reverseRecOn with
  | nil => exact Keeps.empty
  | append_singleton requests request ih =>
    rw [Stored.served, served, List.foldl_append, List.foldl_append]
    exact ih.serve request

/-- After any requests, the tables give the answers that the registrations give. -/
theorem served_answers (requests : List Request) :
    (∀ kind, (Stored.served requests).rulesFor kind = (served requests).rulesFor kind) ∧
    (Stored.served requests).definitions = (served requests).definitions ∧
    (Stored.served requests).size = (served requests).size ∧
    ∀ kind rule, SameAnswer ((Stored.served requests).register kind rule)
      ((served requests).register kind rule) :=
  have h := served_keeps requests
  ⟨h.rulesFor, h.definitions, h.size, h.register⟩

/-! ## The registry of the built-in rules -/

/-- Requests for some registrations, and for no more of them. -/
def requestsFor (entries : List (Kind × Rule)) : List Request :=
  entries.map (fun entry => .register entry.1 (some entry.2)) ++ [.freeze]

/-- All registrations are accepted when no two are of one name and kind. -/
theorem served_registrations {entries : List (Kind × Rule)} (h : (entries.map entryKey).Nodup) :
    served (entries.map fun entry => .register entry.1 (some entry.2)) = ⟨entries, false⟩ := by
  induction entries using List.reverseRecOn with
  | nil => rfl
  | append_singleton entries entry ih =>
    rw [List.map_append, List.nodup_append] at h
    have hnew : (entry.1, entry.2.name) ∉ entries.map entryKey := fun hmem =>
      h.2.2 _ hmem _ (List.mem_singleton_self _) rfl
    rw [List.map_append, served, List.foldl_append, ← served, ih h.1, List.map_singleton,
      List.foldl_cons, List.foldl_nil, serve, register_eq rfl hnew]
    rfl

theorem keeps_requestsFor {entries : List (Kind × Rule)} (h : (entries.map entryKey).Nodup) :
    Keeps (Stored.served (requestsFor entries)) ⟨entries, true⟩ := by
  have hserved : served (requestsFor entries) = ⟨entries, true⟩ := by
    rw [requestsFor, served, List.foldl_append, ← served, served_registrations h]
    rfl
  rw [← hserved]
  exact served_keeps _

end Registry

/-- The registry of the built-in rules is that of the tables which its registrations fill. -/
theorem Rules.keeps_registry {overlays : Overlays} {disabled : List Text} {r : Registry}
    (h : registry overlays disabled = .ok r) :
    Registry.Keeps (Registry.Stored.served (Registry.requestsFor r.entries)) r := by
  rw [registry_eq overlays (valid_of_registry h)] at h
  cases htables : changedTables overlays with
  | error e =>
    rw [htables] at h
    cases h
  | ok tables =>
    rw [htables] at h
    obtain rfl : assembled tables.1 tables.2.1 tables.2.2 disabled = r := Except.ok.inj h
    have hnodup := builtIn_nodup tables.1 tables.2.1 tables.2.2
    exact Registry.keeps_requestsFor (hnodup.sublist (List.filter_sublist.map _))

end TwigLint
