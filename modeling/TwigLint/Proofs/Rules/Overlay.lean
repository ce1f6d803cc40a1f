import TwigLint.Proofs.Rules.Registry
import TwigLint.Proofs.Text.Order
import Mathlib.Data.List.Nodup

/-! # Overlays of name tables

A table has no faults exactly when it lists every name once.  An overlay puts each of its names into
one bucket and takes it out of all others first, so it leaves no faults where there were none,
whatever it lists.
-/

namespace TwigLint

namespace Policy.Table

/-- All names of a table, bucket by bucket. -/
def listed (t : Table) : List Text := t.entries.map Prod.fst

theorem listed_eq (t : Table) :
    t.listed = t.ignore ++ t.allow ++ t.retire.map Prod.fst ++ t.warn.map Prod.fst ++
      t.forbid.map Prod.fst := by
  simp [listed, entries, Function.comp_def]

/-! ## Faults -/

/-- How often a name is listed is the number of its buckets. -/
theorem length_buckets (t : Table) (name : Text) :
    ((t.entries.filter (·.1 == name)).map Prod.snd).length = t.listed.count name := by
  rw [List.length_map, listed, List.count, List.countP_map, List.countP_eq_length_filter]
  rfl

theorem conflicts_eq_nil_iff (t : Table) : t.conflicts = [] ↔ t.listed.Nodup := by
  rw [conflicts, Text.sort_eq_nil, List.map_eq_nil_iff, List.filter_eq_nil_iff,
    List.nodup_iff_count_le_one]
  constructor
  · intro h name
    by_cases hname : name ∈ t.listed
    · have hbucket := h (name, (t.entries.filter (·.1 == name)).map Prod.snd)
        (List.mem_map.mpr ⟨name, List.mem_eraseDups.mpr hname, rfl⟩)
      simp only [length_buckets, decide_eq_true_eq] at hbucket
      omega
    · rw [List.count_eq_zero_of_not_mem hname]
      exact Nat.zero_le 1
  · intro h bucket hbucket
    obtain ⟨name, -, rfl⟩ := List.mem_map.mp hbucket
    have hcount := h name
    simp only [length_buckets, decide_eq_true_eq]
    omega

/-- A table has no faults exactly when it lists every name once. -/
theorem complaint?_eq_none_iff (t : Table) : t.complaint? = none ↔ t.listed.Nodup := by
  rw [← conflicts_eq_nil_iff, complaint?]
  cases t.conflicts <;> simp

/-! ## Moving names -/

theorem listed_remove (t : Table) (name : Text) :
    (t.remove name).listed = t.listed.filter (· != name) := by
  simp only [listed_eq, remove, withoutName, List.filter_append, List.filter_map]
  rfl

/-- The second table lists the name once, and all others as the first. -/
def Moves (name : Text) (t t' : Table) : Prop :=
  List.Perm t'.listed (name :: (t.remove name).listed)

theorem Moves.nodup {name : Text} {t t' : Table} (h : Moves name t t') (ht : t.listed.Nodup) :
    t'.listed.Nodup := by
  rw [Moves, listed_remove] at h
  refine h.nodup_iff.mpr (List.nodup_cons.mpr ⟨?_, ht.filter _⟩)
  simp

theorem moves_add (t : Table) (name hint : Text) :
    Moves name t (t.addIgnore name) ∧ Moves name t (t.addAllow name) ∧
      Moves name t (t.addRetire (name, hint)) ∧ Moves name t (t.addWarn (name, hint)) ∧
      Moves name t (t.addForbid (name, hint)) := by
  simp only [Moves, List.perm_iff_count, listed_eq, addIgnore, addAllow, addRetire,
    addWarn, addForbid, List.map_append, List.map_cons, List.map_nil, List.count_append,
    List.count_cons, List.count_nil]
  refine ⟨?_, ?_, ?_, ?_, ?_⟩ <;> intro a <;> omega

/-- A table that lists every name once still does so with an overlay applied. -/
theorem nodup_merge {t : Table} (h : t.listed.Nodup) (o : Overlay) : (t.merge o).listed.Nodup := by
  have hignore := List.foldlRecOn (motive := fun t : Table => t.listed.Nodup) o.ignore addIgnore h
    fun t ht name _ => (moves_add t name []).1.nodup ht
  have hallow := List.foldlRecOn o.allow addAllow hignore
    fun t ht name _ => (moves_add t name []).2.1.nodup ht
  have hretire := List.foldlRecOn (o.retire.getD []) addRetire hallow
    fun t ht entry _ => (moves_add t entry.1 entry.2).2.2.1.nodup ht
  have hwarn := List.foldlRecOn (o.warn.getD []) addWarn hretire
    fun t ht entry _ => (moves_add t entry.1 entry.2).2.2.2.1.nodup ht
  exact List.foldlRecOn (o.forbid.getD []) addForbid hwarn
    fun t ht entry _ => (moves_add t entry.1 entry.2).2.2.2.2.nodup ht

/-- An overlay leaves no faults where there were none. -/
theorem complaint?_merge {t : Table} (h : t.complaint? = none) (o : Overlay) :
    (t.merge o).complaint? = none :=
  (complaint?_eq_none_iff _).mpr (nodup_merge ((complaint?_eq_none_iff t).mp h) o)

end Policy.Table

namespace Rules

/-! ## The registry with overlays -/

theorem tableFor_ok {base : Policy.Table} (h : base.complaint? = none) (overlays : Overlays)
    (name : Text) : ∃ t, tableFor overlays name base = .ok t := by
  have hchanged (o : Policy.Overlay) :
      (if o.isEmpty then base else base.merge o).complaint? = none := by
    split
    · exact h
    · exact Policy.Table.complaint?_merge h o
  unfold tableFor
  cases overlays.lookup name with
  | none => exact ⟨base, by simp only [h]⟩
  | some o => exact ⟨if o.isEmpty then base else base.merge o, by simp only [hchanged o]⟩

/-- The tables can be changed by any overlays for them. -/
theorem changedTables_ok {overlays : Overlays} (h : ∀ o ∈ overlays, o.1 ∈ tableNames) :
    ∃ tables, changedTables overlays = .ok tables := by
  have hfind : overlays.find? (fun o => !tableNames.contains o.1) = none := by
    rw [List.find?_eq_none]
    intro o ho
    simpa using h o ho
  obtain ⟨filters, hfilters⟩ := tableFor_ok (complaint?_tables filterTable (by simp)) overlays
    "filter"
  obtain ⟨functions, hfunctions⟩ := tableFor_ok (complaint?_tables functionTable (by simp)) overlays
    "function"
  obtain ⟨names, hnames⟩ := tableFor_ok (complaint?_tables variableTable (by simp)) overlays "name"
  refine ⟨(filters, functions, names), ?_⟩
  simp only [changedTables, hfind, hfilters, hfunctions, hnames]
  rfl

/-- Overlays of the tables that there are and rules that there are give a registry. -/
theorem registry_ok {overlays : Overlays} {disabled : List Text}
    (htables : ∀ o ∈ overlays, o.1 ∈ tableNames) (hrules : ∀ name ∈ disabled, name ∈ allNames) :
    ∃ r, registry overlays disabled = .ok r := by
  obtain ⟨tables, htables⟩ := changedTables_ok htables
  rw [registry_eq overlays hrules, htables]
  exact ⟨_, rfl⟩

/-- An error names an overlay for no table or a rule that there is not. -/
theorem error_of_registry {overlays : Overlays} {disabled : List Text} {e : SetupError}
    (h : registry overlays disabled = .error e) :
    (∃ o ∈ overlays, o.1 ∉ tableNames ∧ e = .noTable o.1) ∨
      ∃ name ∈ disabled, name ∉ allNames ∧ e = .unknownRule name := by
  cases hoverlay : overlays.find? fun o => !tableNames.contains o.1 with
  | some o =>
    refine .inl ⟨o, List.mem_of_find?_eq_some hoverlay, ?_, ?_⟩
    · simpa using List.find?_some hoverlay
    · rw [registry, hoverlay] at h
      cases h
      rfl
  | none =>
    cases hrule : disabled.find? fun n => !allNames.contains n with
    | some name =>
      refine .inr ⟨name, List.mem_of_find?_eq_some hrule, ?_, ?_⟩
      · simpa using List.find?_some hrule
      · rw [registry, hoverlay, hrule] at h
        cases h
        rfl
    | none =>
      have htables : ∀ o ∈ overlays, o.1 ∈ tableNames := fun o ho => by
        simpa using List.find?_eq_none.mp hoverlay o ho
      have hrules : ∀ name ∈ disabled, name ∈ allNames := fun name hname => by
        simpa using List.find?_eq_none.mp hrule name hname
      obtain ⟨r, hr⟩ := registry_ok htables hrules
      rw [hr] at h
      cases h

theorem registry_error_iff (overlays : Overlays) (disabled : List Text) :
    (∃ e, registry overlays disabled = .error e) ↔
      (∃ o ∈ overlays, o.1 ∉ tableNames) ∨ ∃ name ∈ disabled, name ∉ allNames := by
  constructor
  · rintro ⟨e, he⟩
    rcases error_of_registry he with ⟨o, ho, hname, -⟩ | ⟨name, hmem, hname, -⟩
    · exact .inl ⟨o, ho, hname⟩
    · exact .inr ⟨name, hmem, hname⟩
  · rintro (⟨o, ho, hname⟩ | ⟨name, hmem, hname⟩)
    · cases hoverlay : overlays.find? fun o => !tableNames.contains o.1 with
      | some o => exact ⟨.noTable o.1, by rw [registry, hoverlay]; rfl⟩
      | none => exact absurd (by simpa using List.find?_eq_none.mp hoverlay o ho) hname
    · cases hr : registry overlays disabled with
      | error e => exact ⟨e, rfl⟩
      | ok r => exact absurd (valid_of_registry hr name hmem) hname

end Rules

end TwigLint
