import TwigLint.Lint.Rules.Default
import Mathlib.Data.List.Basic

/-! # The registry of the built-in rules

The built-in rules have different names and each looks at a kind of node once, so registering them
never fails.  Leaving rules out gives the registry of all rules without them, and the same errors
otherwise.
-/

namespace TwigLint

namespace Registry

/-! ## Rules of a kind -/

/-- What a table of some keys has for a key: its value if it is one of them, else nothing. -/
theorem lookup_tabulated {α β : Type} [BEq α] [LawfulBEq α] (f : α → β) (keys : List α) (key : α) :
    (keys.map fun k => (k, f k)).lookup key = if keys.contains key then some (f key) else none := by
  induction keys with
  | nil => rfl
  | cons k keys ih =>
    rw [List.map_cons, List.lookup_cons, ih, List.contains_cons]
    by_cases h : key = k
    · simp [h]
    · simp [beq_false_of_ne h]

/-- A sealed registry has rules ready exactly for the kinds other than `any` that rules are
registered for. -/
theorem lookup_resolved (r : Registry) (kind : Kind) :
    r.resolved.lookup kind =
      if kind ≠ .any ∧ kind ∈ r.entries.map Prod.fst then some (r.resolve kind) else none := by
  rw [resolved, lookup_tabulated]
  congr 1
  simp [and_comm]

/-- Nothing is registered for a kind that no registration is for. -/
theorem registered_eq_nil {r : Registry} {kind : Kind} (h : kind ∉ r.entries.map Prod.fst) :
    r.registered kind = [] := by
  rw [registered, List.map_eq_nil_iff, List.filter_eq_nil_iff]
  intro entry hentry hkind
  exact h (List.mem_map.mpr ⟨entry, hentry, eq_of_beq hkind⟩)

/-- Sealed or not, a registry gives the rules of a kind and then those of every node. -/
theorem rulesFor_eq (r : Registry) (kind : Kind) : r.rulesFor kind = r.resolve kind := by
  unfold rulesFor
  by_cases hfrozen : r.frozen
  · rw [if_pos hfrozen, lookup_resolved]
    by_cases hany : kind = .any
    · simp [hany, resolve]
    · by_cases hkind : kind ∈ r.entries.map Prod.fst
      · rw [if_pos ⟨hany, hkind⟩, Option.getD_some]
      · rw [if_neg fun h => hkind h.2, Option.getD_none, resolve, if_neg hany,
          registered_eq_nil hkind, List.nil_append]
  · rw [if_neg hfrozen]

/-! ## Leaving rules out -/

/-- The registry without the rules of some names. -/
def without (r : Registry) (names : List Text) : Registry :=
  { r with entries := r.entries.filter fun entry => !names.contains entry.2.name }

theorem registered_without (r : Registry) (names : List Text) (kind : Kind) :
    (r.without names).registered kind =
      (r.registered kind).filter fun rule => !names.contains rule.name := by
  simp only [registered, without, List.filter_map]
  rw [List.filter_comm]
  rfl

theorem rulesFor_without (r : Registry) (names : List Text) (kind : Kind) :
    (r.without names).rulesFor kind =
      (r.rulesFor kind).filter fun rule => !names.contains rule.name := by
  rw [rulesFor_eq, rulesFor_eq]
  unfold resolve
  split
  · exact r.registered_without names .any
  · rw [registered_without, registered_without, List.filter_append]

/-! ## Registering -/

/-- What tells registrations apart. -/
def entryKey (entry : Kind × Rule) : Kind × Text := (entry.1, entry.2.name)

theorem register_eq {r : Registry} {kind : Kind} {rule : Rule} (hopen : r.frozen = false)
    (hnew : (kind, rule.name) ∉ r.entries.map entryKey) :
    r.register kind rule = .ok { r with entries := r.entries ++ [(kind, rule)] } := by
  have hfree : (r.registered kind).any (·.name == rule.name) = false := by
    rw [List.any_eq_false]
    intro other hother hname
    obtain ⟨entry, hentry, rfl⟩ := List.mem_map.mp hother
    obtain ⟨hmem, hkind⟩ := List.mem_filter.mp hentry
    refine hnew (List.mem_map.mpr ⟨entry, hmem, ?_⟩)
    rw [entryKey, eq_of_beq hkind, eq_of_beq hname]
  simp [register, hopen, hfree]

/-- Registrations succeed when no two are of one name and kind. -/
theorem foldlM_register {r : Registry} {entries : List (Kind × Rule)} (hopen : r.frozen = false)
    (h : ((r.entries ++ entries).map entryKey).Nodup) :
    entries.foldlM (fun r entry => r.register entry.1 entry.2) r =
      .ok { r with entries := r.entries ++ entries } := by
  induction entries generalizing r with
  | nil =>
    rw [List.append_nil]
    rfl
  | cons entry entries ih =>
    have hnew : (entry.1, entry.2.name) ∉ r.entries.map entryKey := by
      rw [List.map_append, List.nodup_append] at h
      intro hmem
      exact h.2.2 _ hmem _ (List.mem_cons_self ..) rfl
    have hrest : ((r.entries ++ [entry] ++ entries).map entryKey).Nodup := by
      rw [List.append_assoc]
      exact h
    rw [List.foldlM_cons, register_eq hopen hnew]
    change entries.foldlM _ { r with entries := r.entries ++ [entry] } = _
    rw [ih (r := { r with entries := r.entries ++ [entry] }) hopen hrest, List.append_assoc]
    rfl

theorem registerAll_eq (r : Registry) (kinds : List Kind) (rule : Rule) :
    r.registerAll kinds rule = (kinds.map fun kind => (kind, rule)).foldlM
      (fun r entry => r.register entry.1 entry.2) r := by
  rw [registerAll, List.foldlM_map]

end Registry

namespace Rules

open Registry

/-- The registrations of rules for several kinds each. -/
def registrations (rules : List (List Kind × Rule)) : List (Kind × Rule) :=
  rules.flatMap fun entry => entry.1.map fun kind => (kind, entry.2)

theorem registrations_filter (p : Text → Bool) (rules : List (List Kind × Rule)) :
    registrations (rules.filter fun entry => p entry.2.name) =
      (registrations rules).filter fun entry => p entry.2.name := by
  induction rules with
  | nil => rfl
  | cons entry rules ih =>
    have hcons : registrations (entry :: rules) =
        (entry.1.map fun kind => (kind, entry.2)) ++ registrations rules := List.flatMap_cons
    rw [hcons, List.filter_append, ← ih, List.filter_cons]
    by_cases hp : p entry.2.name <;> simp [registrations, hp, List.filter_map, Function.comp_def]

/-- Registering rules for several kinds registers all of their registrations. -/
theorem foldlM_registerAll {r : Registry} {rules : List (List Kind × Rule)}
    (hopen : r.frozen = false) (h : ((r.entries ++ registrations rules).map entryKey).Nodup) :
    rules.foldlM (fun r entry => (r.registerAll entry.1 entry.2).mapError SetupError.registry) r =
      .ok { r with entries := r.entries ++ registrations rules } := by
  induction rules generalizing r with
  | nil =>
    rw [registrations, List.flatMap_nil, List.append_nil]
    rfl
  | cons entry rules ih =>
    have hcons : registrations (entry :: rules) =
        (entry.1.map fun kind => (kind, entry.2)) ++ registrations rules := List.flatMap_cons
    rw [hcons, ← List.append_assoc] at h
    have hfirst : ((r.entries ++ entry.1.map fun kind => (kind, entry.2)).map entryKey).Nodup := by
      rw [List.map_append] at h
      exact (List.nodup_append.mp h).1
    rw [List.foldlM_cons, registerAll_eq, foldlM_register hopen hfirst]
    change rules.foldlM _ { r with entries := r.entries ++ _ } = _
    rw [ih (r := { r with entries := r.entries ++ _ }) hopen h, hcons, List.append_assoc]

theorem builtIn_nodup (filters functions names : Policy.Table) :
    ((registrations (builtIn filters functions names)).map entryKey).Nodup := by
  -- the kinds and names do not depend on the tables
  change ((registrations (builtIn filterTable functionTable variableTable)).map entryKey).Nodup
  decide

/-- The registry of the built-in rules with the given tables, but for those that are left out. -/
def assembled (filters functions names : Policy.Table) (disabled : List Text) : Registry :=
  ⟨(registrations (builtIn filters functions names)).filter fun entry =>
    !disabled.contains entry.2.name, true⟩

theorem assembled_ok (filters functions names : Policy.Table) (disabled : List Text) :
    (do
      let kept := (builtIn filters functions names).filter fun entry : List Kind × Rule =>
        !disabled.contains entry.2.name
      let register (r : Registry) (entry : List Kind × Rule) : Except SetupError Registry :=
        (r.registerAll entry.1 entry.2).mapError .registry
      return (← kept.foldlM register .empty).freeze) =
    .ok (assembled filters functions names disabled) := by
  have hfilter := registrations_filter (fun name => !disabled.contains name)
    (builtIn filters functions names)
  have hkept : ((Registry.empty.entries ++ registrations ((builtIn filters functions names).filter
      fun entry => !disabled.contains entry.2.name)).map entryKey).Nodup := by
    rw [hfilter]
    exact (builtIn_nodup filters functions names).sublist (List.filter_sublist.map _)
  have hregistered := foldlM_registerAll (r := Registry.empty) rfl hkept
  rw [hfilter] at hregistered
  exact congrArg (Except.map Registry.freeze) hregistered

theorem assembled_eq (filters functions names : Policy.Table) (disabled : List Text) :
    assembled filters functions names disabled =
      (assembled filters functions names []).without disabled := by
  rw [assembled, Registry.without, assembled, List.filter_filter]
  congr 1
  refine List.filter_congr fun entry _ => ?_
  rw [List.contains_nil, Bool.not_false, Bool.and_true]

/-- The tables of filters, functions and variables with their overlays, unless an overlay is for no
table or leaves one at fault. -/
def changedTables (overlays : Overlays) :
    Except SetupError (Policy.Table × Policy.Table × Policy.Table) := do
  if let some (name, _) := overlays.find? fun o => !tableNames.contains o.1 then
    throw (.noTable name)
  let filters ← tableFor overlays "filter" filterTable
  let functions ← tableFor overlays "function" functionTable
  let names ← tableFor overlays "name" variableTable
  return (filters, functions, names)

/-- The registry can be built when the tables can. -/
theorem registry_eq (overlays : Overlays) {disabled : List Text}
    (hvalid : ∀ name ∈ disabled, name ∈ allNames) :
    registry overlays disabled =
      (changedTables overlays).map fun t => assembled t.1 t.2.1 t.2.2 disabled := by
  have hfind : disabled.find? (fun n => !allNames.contains n) = none := by
    rw [List.find?_eq_none]
    intro name hname
    simpa using hvalid name hname
  unfold registry changedTables
  rw [hfind]
  cases overlays.find? fun o => !tableNames.contains o.1 with
  | some o => rfl
  | none =>
    cases tableFor overlays "filter" filterTable with
    | error e => rfl
    | ok filters =>
      cases tableFor overlays "function" functionTable with
      | error e => rfl
      | ok functions =>
        cases tableFor overlays "name" variableTable with
        | error e => rfl
        | ok names => exact assembled_ok filters functions names disabled

/-- Only known rules can be left out. -/
theorem valid_of_registry {overlays : Overlays} {disabled : List Text} {r : Registry}
    (h : registry overlays disabled = .ok r) : ∀ name ∈ disabled, name ∈ allNames := by
  have hfind : disabled.find? (fun n => !allNames.contains n) = none := by
    cases hfind : disabled.find? fun n => !allNames.contains n with
    | none => rfl
    | some name =>
      unfold registry at h
      rw [hfind] at h
      cases hoverlay : overlays.find? fun o => !tableNames.contains o.1 with
      | none =>
        rw [hoverlay] at h
        cases h
      | some o =>
        rw [hoverlay] at h
        cases h
  intro name hname
  simpa using List.find?_eq_none.mp hfind name hname

/-- Leaving rules out changes nothing but that they are not registered. -/
theorem registry_disabled (overlays : Overlays) {disabled : List Text}
    (hvalid : ∀ name ∈ disabled, name ∈ allNames) :
    registry overlays disabled = (registry overlays []).map fun r => r.without disabled := by
  rw [registry_eq overlays hvalid, registry_eq overlays (List.forall_mem_nil _)]
  cases changedTables overlays with
  | error e => rfl
  | ok t => exact congrArg Except.ok (assembled_eq t.1 t.2.1 t.2.2 disabled)

/-! ## Rules as they are -/

/-- The built-in rules with their own tables. -/
def plainRegistry : Registry := assembled filterTable functionTable variableTable []

theorem tableFor_nil {base : Policy.Table} (h : base.complaint? = none) (name : Text) :
    tableFor [] name base = .ok base := by
  rw [tableFor, List.lookup_nil, h]

/-- The tables as they are have no faults. -/
theorem complaint?_tables :
    ∀ table ∈ [filterTable, functionTable, variableTable], table.complaint? = none := by
  decide +kernel

theorem registry_plain : registry [] [] = .ok plainRegistry := by
  have hfilters := complaint?_tables filterTable (by simp)
  have hfunctions := complaint?_tables functionTable (by simp)
  have hnames := complaint?_tables variableTable (by simp)
  have htables : changedTables [] = .ok (filterTable, functionTable, variableTable) := by
    simp only [changedTables, tableFor_nil hfilters, tableFor_nil hfunctions, tableFor_nil hnames,
      List.find?_nil]
    rfl
  rw [registry_eq [] (List.forall_mem_nil _), htables]
  rfl

end Rules

end TwigLint
