import TwigLint.Proofs.Scope.Account
import TwigLint.Proofs.Collections.Occurrence

/-! # Unused names

The report about unused names is read off a tracker when a walk is over.  What it means is said
here along the walk: which names the operations create, and which bindings their uses refer to at
the time.  The two agree for all lists of operations.
-/

namespace TwigLint.Tracker

/-! ## Along the operations -/

/-- The local name that an operation creates: a declaration always does, an assignment only when
the name is not visible or provided by the runtime. -/
def createdBy (t : Tracker) : ScopeOp → List Text
  | .declare name _ => [name]
  | .assign name _ =>
    if t.kind? name = none ∨ t.kind? name = some .injected then [name] else []
  | _ => []

/-- The name that an operation uses, with the kind of the binding to which it refers. -/
def usedBy (t : Tracker) : ScopeOp → List (BindingKind × Text)
  | .use name => (t.kind? name).toList.map fun kind => (kind, name)
  | _ => []

/-- The local names that operations create, in their order. -/
def createdAlong (t : Tracker) : List ScopeOp → List Text
  | [] => []
  | op :: ops => t.createdBy op ++ (t.apply op).createdAlong ops

/-- The names that operations use, each with the kind of the binding to which it refers then. -/
def usedAlong (t : Tracker) : List ScopeOp → List (BindingKind × Text)
  | [] => []
  | op :: ops => t.usedBy op ++ (t.apply op).usedAlong ops

/-! ## Single operations -/

theorem namesOf_declare (t : Tracker) (name : Text) (line : Int) (kind other : BindingKind) :
    (t.declare name line kind).namesOf other =
      t.namesOf other ++ if kind = other then [name] else [] :=
  t.namesOf_bindName ⟨name, line, t.seq + 1, false, kind⟩ other

theorem usedAs_declare (t : Tracker) (name : Text) (line : Int) (kind other : BindingKind)
    (n : Text) : (t.declare name line kind).usedAs other n = t.usedAs other n := by
  have h := t.usedAs_bindName ⟨name, line, t.seq + 1, false, kind⟩ other n
  rwa [Bool.and_false, Bool.or_false] at h

theorem assign_eq (t : Tracker) (name : Text) (line : Int) :
    t.assign name line = if t.kind? name = none ∨ t.kind? name = some .injected then
      t.declare name line .target else t := by
  unfold assign kind?
  cases t.lookup? name with
  | none => simp
  | some b => simp

theorem namesOf_target_apply (t : Tracker) (op : ScopeOp) :
    (t.apply op).namesOf .target = t.namesOf .target ++ t.createdBy op := by
  cases op with
  | push isolated owner => simp [apply, createdBy, push, namesOf]
  | pop =>
    simp only [apply, createdBy, pop, List.append_nil]
    split <;> rfl
  | declare name line => exact t.namesOf_declare name line .target .target
  | declareParam name line => exact t.namesOf_declare name line .param .target
  | declareImport name line => exact t.namesOf_declare name line .imported .target
  | inject name => exact t.namesOf_bindName (.provided name) .target
  | assign name line =>
    simp only [apply, createdBy, assign_eq]
    split
    · exact t.namesOf_declare name line .target .target
    · rw [List.append_nil]
  | use name => simp only [apply, createdBy, namesOf_use, List.append_nil]

theorem namesOf_input_apply (t : Tracker) (op : ScopeOp) :
    (t.apply op).namesOf .input = t.namesOf .input := by
  have hdeclare (name : Text) (line : Int) {kind : BindingKind} (h : kind ≠ .input) :
      (t.declare name line kind).namesOf .input = t.namesOf .input := by
    rw [namesOf_declare, if_neg h, List.append_nil]
  cases op with
  | push isolated owner => rfl
  | pop =>
    simp only [apply, pop]
    split <;> rfl
  | declare name line => exact hdeclare name line (by decide)
  | declareParam name line => exact hdeclare name line (by decide)
  | declareImport name line => exact hdeclare name line (by decide)
  | inject name => simp [apply, inject, Binding.provided]
  | assign name line =>
    simp only [apply, assign_eq]
    split
    · exact hdeclare name line (by decide)
    · rfl
  | use name => exact t.namesOf_use name .input

/-- Only the names that the runtime provides count as used without a use. -/
theorem usedAs_apply {t : Tracker} (h : t.Named) (op : ScopeOp) {kind : BindingKind}
    (hkind : kind ≠ .injected) (name : Text) :
    (t.apply op).usedAs kind name =
      (t.usedAs kind name || (t.usedBy op).contains (kind, name)) := by
  cases op with
  | push isolated owner => simp [apply, usedBy, push, usedAs]
  | pop =>
    simp only [apply, usedBy, pop, List.contains_nil, Bool.or_false]
    split <;> rfl
  | inject other =>
    have hne : (kind == BindingKind.injected) = false := by simpa using hkind
    simp [apply, usedBy, inject, Binding.provided, hne]
  | assign other line =>
    simp only [apply, usedBy, assign_eq, List.contains_nil, Bool.or_false]
    split
    · exact t.usedAs_declare other line .target kind name
    · rfl
  | use other =>
    rw [apply, usedAs_use h, usedBy]
    cases t.kind? other with
    | none => simp
    | some k =>
      rw [Bool.eq_iff_iff]
      simp
  | declare other line => simp [apply, usedBy, usedAs_declare]
  | declareParam other line => simp [apply, usedBy, usedAs_declare]
  | declareImport other line => simp [apply, usedBy, usedAs_declare]

/-! ## Runs -/

theorem namesOf_target_run (t : Tracker) (ops : List ScopeOp) :
    (t.run ops).namesOf .target = t.namesOf .target ++ t.createdAlong ops := by
  induction ops generalizing t with
  | nil => simp [createdAlong]
  | cons op ops ih => rw [run_cons, ih, namesOf_target_apply, createdAlong, List.append_assoc]

theorem namesOf_input_run (t : Tracker) (ops : List ScopeOp) :
    (t.run ops).namesOf .input = t.namesOf .input := by
  induction ops generalizing t with
  | nil => rfl
  | cons op ops ih => rw [run_cons, ih, namesOf_input_apply]

theorem usedAs_run {t : Tracker} (h : t.Named) (ops : List ScopeOp) {kind : BindingKind}
    (hkind : kind ≠ .injected) (name : Text) :
    (t.run ops).usedAs kind name =
      (t.usedAs kind name || (t.usedAlong ops).contains (kind, name)) := by
  induction ops generalizing t with
  | nil => simp [usedAlong]
  | cons op ops ih =>
    rw [run_cons, ih (h.apply op), usedAs_apply h op hkind, usedAlong, List.contains_append,
      Bool.or_assoc]

/-! ## The log of declarations -/

/-- The declarations are numbered from one on, and everything that the template declares has a
number. -/
structure Numbered (t : Tracker) : Prop where
  numbers : t.declarations.map (·.seq) = List.range' 1 t.seq
  locals : ∀ b ∈ t.store.toList, b.kind = .target → 0 < b.seq

theorem Numbered.declare {t : Tracker} (h : t.Numbered) (name : Text) (line : Int)
    (kind : BindingKind) : (t.declare name line kind).Numbered where
  numbers := by
    have hdeclared : (t.declare name line kind).declarations =
        t.declarations ++ [⟨name, line, t.seq + 1, false, kind⟩] := by
      simp [declarations, Tracker.declare, bindName]
    rw [hdeclared, List.map_append, h.numbers]
    exact (List.range'_1_concat.trans (by simp [Nat.add_comm])).symm
  locals b hb hkind := by
    rcases List.mem_append.mp (Array.toList_push ▸ hb) with hb | hb
    · exact h.locals b hb hkind
    · obtain rfl := List.mem_singleton.mp hb
      exact Nat.succ_pos _

theorem Numbered.inject {t : Tracker} (h : t.Numbered) (name : Text) :
    (t.inject name).Numbered where
  numbers := by
    have hsame : (t.inject name).declarations = t.declarations := by
      simp [declarations, Tracker.inject, bindName, Binding.provided]
    rw [hsame]
    exact h.numbers
  locals b hb hkind := by
    rcases List.mem_append.mp (Array.toList_push ▸ hb) with hb | hb
    · exact h.locals b hb hkind
    · obtain rfl := List.mem_singleton.mp hb
      cases hkind

theorem Numbered.use {t : Tracker} (h : t.Numbered) (name : Text) : (t.use name).Numbered := by
  have hsame (g : Binding → Option Nat) (hg : ∀ b : Binding, g { b with used := true } = g b) :
      (t.use name).store.toList.filterMap g = t.store.toList.filterMap g := by
    unfold Tracker.use
    split
    · rw [Array.toList_modify, filterMap_mark hg]
    · rfl
  have hnumbers (t : Tracker) : t.declarations.map (·.seq) =
      t.store.toList.filterMap fun b => if 0 < b.seq then some b.seq else none := by
    rw [declarations, ← List.filterMap_eq_filter, List.map_filterMap]
    congr 1
    funext b
    by_cases hb : 0 < b.seq <;> simp [hb, Option.guard]
  have hseq : (t.use name).seq = t.seq := by
    unfold Tracker.use
    split <;> rfl
  constructor
  · rw [hnumbers, hsame _ fun b => rfl, ← hnumbers, h.numbers, hseq]
  · -- a local binding without a number would be found in both stores or in none
    have hnone (t : Tracker) : (∀ b ∈ t.store.toList, b.kind = .target → 0 < b.seq) ↔
        t.store.toList.filterMap
          (fun b => if b.kind = .target ∧ b.seq = 0 then some 0 else none) = [] := by
      rw [List.filterMap_eq_nil_iff]
      refine forall₂_congr fun b hb => ?_
      by_cases hkind : b.kind = .target <;> simp [hkind, Nat.pos_iff_ne_zero]
    rw [hnone, hsame _ fun b => rfl, ← hnone]
    exact h.locals

theorem Numbered.of_store {t t' : Tracker} (h : t.Numbered) (hstore : t'.store = t.store)
    (hseq : t'.seq = t.seq) : t'.Numbered := by
  constructor
  · rw [declarations, hstore, hseq]
    exact h.numbers
  · rw [hstore]
    exact h.locals

theorem Numbered.apply {t : Tracker} (h : t.Numbered) (op : ScopeOp) : (t.apply op).Numbered := by
  cases op with
  | push isolated owner => exact h.of_store rfl rfl
  | pop =>
    simp only [Tracker.apply, pop]
    split
    · exact h
    · exact h.of_store rfl rfl
  | declare name line => exact h.declare name line .target
  | declareParam name line => exact h.declare name line .param
  | declareImport name line => exact h.declare name line .imported
  | inject name => exact h.inject name
  | assign name line =>
    simp only [Tracker.apply, assign_eq]
    split
    · exact h.declare name line .target
    · exact h
  | use name => exact h.use name

theorem Numbered.run {t : Tracker} (h : t.Numbered) (ops : List ScopeOp) :
    (t.run ops).Numbered :=
  holds_run Numbered.apply h ops

theorem storeKept_apply (t : Tracker) (op : ScopeOp) : StoreKept t (t.apply op) :=
  holds_apply (P := StoreKept t) (fun h hchange => h.trans hchange.continues.store)
    (fun h _ _ => h) (fun h => holds_pop h fun _ _ _ => h) (.refl t) op

theorem storeKept_run (t : Tracker) (ops : List ScopeOp) : StoreKept t (t.run ops) :=
  holds_run (P := StoreKept t) (fun h op => h.trans (storeKept_apply _ op)) (.refl t) ops

theorem Numbered.seq_eq {t : Tracker} (h : t.Numbered) {i : Nat} {b : Binding}
    (hb : t.declarations[i]? = some b) : b.seq = i + 1 ∧ i < t.seq := by
  have hnumber : (t.declarations.map (·.seq))[i]? = some b.seq := by
    rw [List.getElem?_map, hb, Option.map_some]
  rw [h.numbers] at hnumber
  obtain ⟨hi, heq⟩ := List.getElem?_eq_some_iff.mp hnumber
  rw [List.length_range'] at hi
  rw [List.getElem_range'] at heq
  exact ⟨by omega, hi⟩

/-- A declaration keeps its place in the log. -/
theorem Numbered.declaration_kept {t t' : Tracker} (h : t.Numbered) (h' : t'.Numbered)
    (hstore : StoreKept t t') {i : Nat} {b : Binding} (hb : t.declarations[i]? = some b) :
    ∃ b', t'.declarations[i]? = some b' ∧ b.Later b' := by
  obtain ⟨hmem, hpos⟩ := List.mem_filter.mp (List.mem_of_getElem? hb)
  obtain ⟨j, hj⟩ := List.mem_iff_getElem?.mp hmem
  obtain ⟨b', hb', hlater⟩ := hstore j b (Array.getElem?_toList ▸ hj)
  have hseq : b'.seq = b.seq := by rw [hlater.2]
  have hstored : b' ∈ t'.store.toList := List.mem_of_getElem? (Array.getElem?_toList ▸ hb')
  have hmem' : b' ∈ t'.declarations := List.mem_filter.mpr ⟨hstored, by simpa [hseq] using hpos⟩
  obtain ⟨k, hk⟩ := List.mem_iff_getElem?.mp hmem'
  -- the number of a declaration is its place, before and after
  have hplace := (h.seq_eq hb).1
  have hplace' := (h'.seq_eq hk).1
  obtain rfl : k = i := by omega
  exact ⟨b', hk, hlater⟩

/-! ## New trackers -/

/-- Nothing has happened to the tracker yet but that names were provided and these inputs added. -/
structure Seeded (report : Bool) (added : List Text) (t : Tracker) : Prop where
  seq : t.seq = 0
  reports : t.reportUnusedInputs = report
  bindings : ∀ b ∈ t.store.toList, b.seq = 0 ∧
    (b.kind = .injected ∨ b.kind = .input ∧ b.used = !report)
  inputs : t.namesOf .input = added.eraseDups
  visible : ∀ name, (t.current.names.lookup name).isSome = true ↔ name ∈ added

theorem Seeded.provide {report : Bool} {added : List Text} {t : Tracker}
    (h : t.Seeded report added) (name : Text) : (t.provide name).Seeded report added where
  seq := h.seq
  reports := h.reports
  bindings b hb := by
    rcases List.mem_append.mp (Array.toList_push ▸ hb) with hb | hb
    · exact h.bindings b hb
    · obtain rfl := List.mem_singleton.mp hb
      exact ⟨rfl, .inl rfl⟩
  inputs := by
    rw [← h.inputs]
    simp [namesOf, Tracker.provide, Binding.provided]
  visible := h.visible

theorem Seeded.addInput {report : Bool} {added : List Text} {t : Tracker}
    (h : t.Seeded report added) (name : Text) :
    (t.addInput name).Seeded report (added ++ [name]) := by
  have hdups : (added ++ [name]).eraseDups =
      added.eraseDups ++ if name ∈ added then [] else [name] := by
    rw [List.eraseDups_append]
    by_cases hmem : name ∈ added <;> simp [List.removeAll, List.eraseDups_cons, hmem]
  unfold Tracker.addInput
  by_cases hmem : name ∈ added
  · rw [if_pos ((h.visible name).mpr hmem)]
    refine ⟨h.seq, h.reports, h.bindings, ?_, fun other => ?_⟩
    · rw [hdups, if_pos hmem, List.append_nil, h.inputs]
    · rw [h.visible, List.mem_append, List.mem_singleton]
      exact ⟨.inl, fun hor => hor.elim id fun heq => heq ▸ hmem⟩
  · rw [if_neg fun hsome => hmem ((h.visible name).mp hsome)]
    refine ⟨h.seq, h.reports, fun b hb => ?_, ?_, fun other => ?_⟩
    · rcases List.mem_append.mp (Array.toList_push ▸ hb) with hb | hb
      · exact h.bindings b hb
      · obtain rfl := List.mem_singleton.mp hb
        exact ⟨rfl, .inr ⟨rfl, by rw [h.reports]⟩⟩
    · rw [namesOf_bindName, h.inputs, hdups, if_neg hmem]
      simp
    · rw [List.mem_append, List.mem_singleton, ← h.visible]
      rw [bindName, List.lookup_cons]
      by_cases heq : other = name
      · simp [heq]
      · rw [beq_false_of_ne heq]
        simp [heq]

theorem seeded_new (inputs injected : List Text) (report : Bool) :
    (Tracker.new inputs injected report).Seeded report inputs :=
  holds_new (P := fun _ added t => t.Seeded report added) ⟨rfl, rfl, by simp, rfl, by simp⟩
    Seeded.provide Seeded.addInput inputs injected

theorem Seeded.numbered {report : Bool} {added : List Text} {t : Tracker}
    (h : t.Seeded report added) : t.Numbered where
  numbers := by
    have hnone : t.declarations = [] :=
      List.filter_eq_nil_iff.mpr fun b hb => by simpa using (h.bindings b hb).1
    rw [hnone, h.seq]
    rfl
  locals b hb hkind := by
    rcases (h.bindings b hb).2 with hinjected | ⟨hinput, -⟩
    · rw [hkind] at hinjected
      cases hinjected
    · rw [hkind] at hinput
      cases hinput

/-! ## The report -/

theorem Numbered.unusedLocals {t : Tracker} (h : t.Numbered) :
    t.unusedLocals = ((t.namesOf .target).filter fun n => !t.usedAs .target n).eraseDups := by
  have hlocals : t.declarations.filter (·.kind == .target) =
      t.store.toList.filter (·.kind == .target) := by
    rw [declarations, List.filter_filter]
    refine List.filter_congr fun b hb => ?_
    by_cases hkind : b.kind = .target
    · simp [hkind, h.locals b hb hkind]
    · simp [hkind]
  have hused (n : Text) : (((t.store.toList.filter (·.kind == .target)).filter
      (·.used)).map (·.name)).contains n = t.usedAs .target n := by
    rw [Bool.eq_iff_iff, List.contains_iff_mem, usedAs, List.any_eq_true]
    simp only [List.mem_map, List.mem_filter, Bool.and_eq_true, beq_iff_eq]
    constructor
    · rintro ⟨b, ⟨⟨hb, hkind⟩, hused⟩, rfl⟩
      exact ⟨b, hb, ⟨hkind.symm, rfl⟩, hused⟩
    · rintro ⟨b, hb, ⟨hkind, rfl⟩, hused⟩
      exact ⟨b, ⟨⟨hb, hkind.symm⟩, hused⟩, rfl⟩
  simp only [Tracker.unusedLocals, hlocals, hused]
  rfl

/-- Where every name occurs once, an entry is used exactly if its name is. -/
theorem map_filter_unused {bs : List Binding} (h : (bs.map (·.name)).Nodup) :
    (bs.filter fun b => !b.used).map (·.name) =
      (bs.map (·.name)).filter fun n => !bs.any fun b => n == b.name && b.used := by
  rw [List.filter_map]
  congr 1
  refine List.filter_congr fun b hb => ?_
  have hused : (bs.any fun c => b.name == c.name && c.used) = b.used := by
    rw [Bool.eq_iff_iff, List.any_eq_true]
    constructor
    · rintro ⟨c, hc, hsame⟩
      rw [Bool.and_eq_true, beq_iff_eq] at hsame
      rw [List.inj_on_of_nodup_map h hb hc hsame.1]
      exact hsame.2
    · exact fun husedb => ⟨b, hb, by simp [husedb]⟩
  rw [Function.comp_apply, hused]

theorem unusedInputs_eq {t : Tracker} (h : (t.namesOf .input).Nodup) :
    (t.inputs.filter fun b => !b.used).map (·.name) =
      (t.namesOf .input).filter fun n => !t.usedAs .input n := by
  have hused (n : Text) : t.usedAs .input n = t.inputs.any fun b => n == b.name && b.used := by
    rw [usedAs, Tracker.inputs, List.any_filter]
    congr 1
    funext b
    rw [Bool.and_assoc, BEq.comm]
  rw [show t.namesOf .input = t.inputs.map (·.name) from rfl] at *
  rw [map_filter_unused h]
  simp only [hused]

theorem reportUnusedInputs_apply (t : Tracker) (op : ScopeOp) :
    (t.apply op).reportUnusedInputs = t.reportUnusedInputs := by
  cases op with
  | pop =>
    simp only [apply, pop]
    split <;> rfl
  | assign name line =>
    simp only [apply, assign_eq]
    split <;> rfl
  | use name =>
    simp only [apply, use]
    split <;> rfl
  | _ => rfl

theorem reportUnusedInputs_run (t : Tracker) (ops : List ScopeOp) :
    (t.run ops).reportUnusedInputs = t.reportUnusedInputs := by
  induction ops generalizing t with
  | nil => rfl
  | cons op ops ih => rw [run_cons, ih, reportUnusedInputs_apply]

/-- In a new tracker, only inputs that are not reported count as used, besides what the runtime
provides. -/
theorem Seeded.usedAs {report : Bool} {added : List Text} {t : Tracker}
    (h : t.Seeded report added) {kind : BindingKind} (hkind : kind = .target ∨ report = true)
    (hprovided : kind ≠ .injected) (name : Text) : t.usedAs kind name = false := by
  rw [Tracker.usedAs, List.any_eq_false]
  intro b hb
  rcases (h.bindings b hb).2 with hinjected | ⟨hinput, hused⟩
  · simp [hinjected, hprovided]
  · rcases hkind with rfl | rfl
    · simp [hinput]
    · simp [hused]

/-- The report lists every name once. -/
theorem nodup_unused {t : Tracker} (h : (t.namesOf .input).Nodup) : t.unused.Nodup := by
  have hlocals : t.unusedLocals.Nodup := nodup_eraseDups _
  simp only [unused]
  split
  · rw [unusedInputs_eq h, List.nodup_append]
    refine ⟨hlocals, (h.filter _).filter _, fun a ha b hb hab => ?_⟩
    have hother := (List.mem_filter.mp hb).2
    simp [← hab, ha] at hother
  · exact hlocals

/-! ## The report after a run -/

section

variable (inputs injected : List Text) (report : Bool) (ops : List ScopeOp)

theorem namesOf_input_new :
    ((Tracker.new inputs injected report).run ops).namesOf .input = inputs.eraseDups := by
  rw [namesOf_input_run, (seeded_new inputs injected report).inputs]

/-- A new tracker has no local names, so that all of them are from the operations. -/
theorem unusedLocals_new :
    let start := Tracker.new inputs injected report
    (start.run ops).unusedLocals = ((start.createdAlong ops).filter fun name =>
      !(start.usedAlong ops).contains (.target, name)).eraseDups := by
  intro start
  have hseeded := seeded_new inputs injected report
  have hnone : start.namesOf .target = [] := by
    refine List.map_eq_nil_iff.mpr (List.filter_eq_nil_iff.mpr fun b hb => ?_)
    rcases (hseeded.bindings b hb).2 with hkind | ⟨hkind, -⟩ <;> simp [hkind]
  rw [(hseeded.numbered.run ops).unusedLocals, namesOf_target_run, hnone, List.nil_append]
  congr 2
  funext name
  rw [usedAs_run (named_new inputs injected report) ops (by decide),
    hseeded.usedAs (.inl rfl) (by decide), Bool.false_or]

theorem unusedInputs_new :
    let start := Tracker.new inputs injected true
    ((start.run ops).inputs.filter fun b => !b.used).map (·.name) =
      inputs.eraseDups.filter fun name => !(start.usedAlong ops).contains (.input, name) := by
  intro start
  have hnames : (start.run ops).namesOf .input = inputs.eraseDups :=
    namesOf_input_new inputs injected true ops
  rw [unusedInputs_eq (hnames ▸ nodup_eraseDups inputs), hnames]
  congr 1
  funext name
  rw [usedAs_run (named_new inputs injected true) ops (by decide),
    (seeded_new inputs injected true).usedAs (.inr rfl) (by decide), Bool.false_or]

end

/-- The exact meaning of the report about unused names.  After any operations on a new tracker it
lists the names of local bindings of which none was ever referred to by a use, in the order of
their first declarations and each once; if inputs are reported, these are followed by the inputs
that no use ever referred to, as far as they are not listed yet.  Meanwhile the log of declarations
only grows, its entries are numbered from one on, and what has been used stays used. -/
theorem unused_after_run (inputs injected : List Text) (report : Bool) (ops : List ScopeOp) :
    let start := Tracker.new inputs injected report
    let used := start.usedAlong ops
    let locals :=
      ((start.createdAlong ops).filter fun name => !used.contains (.target, name)).eraseDups
    let idle := inputs.eraseDups.filter fun name =>
      !used.contains (.input, name) && !locals.contains name
    (start.run ops).unused = locals ++ (if report then idle else []) ∧
      (start.run ops).unused.Nodup ∧
      ∀ before behind, ops = before ++ behind →
        StoreKept (start.run before) (start.run ops) ∧
        ∀ i b, (start.run before).declarations[i]? = some b →
          b.seq = i + 1 ∧ ∃ b', (start.run ops).declarations[i]? = some b' ∧ b.Later b' := by
  intro start used locals idle
  have hseeded := seeded_new inputs injected report
  have hnumbered (ops : List ScopeOp) : (start.run ops).Numbered := hseeded.numbered.run ops
  refine ⟨?_, nodup_unused ?_, ?_⟩
  · have hlocals : (start.run ops).unusedLocals = locals :=
      unusedLocals_new inputs injected report ops
    have hreport : (start.run ops).reportUnusedInputs = report :=
      (reportUnusedInputs_run start ops).trans hseeded.reports
    simp only [unused, hlocals, hreport]
    cases report with
    | false => simp
    | true =>
      rw [if_pos rfl, if_pos rfl, unusedInputs_new, List.filter_filter]
      congr 2
      funext name
      exact Bool.and_comm ..
  · rw [namesOf_input_new]
    exact nodup_eraseDups inputs
  · rintro before behind rfl
    have hkept : StoreKept (start.run before) (start.run (before ++ behind)) := by
      rw [run_append]
      exact storeKept_run _ behind
    exact ⟨hkept, fun i b hb => ⟨((hnumbered before).seq_eq hb).1,
      (hnumbered before).declaration_kept (hnumbered _) hkept hb⟩⟩

/-- One of two bindings of a name is used, a shadowed input is used only through the local name, and
an input is assigned to. -/
theorem unused_after_run_shadowed :
    let ops : List ScopeOp := [.declare [97] 1, .push false none, .declare [97] 2, .use [97], .pop,
      .declare [98] 3, .declare [99] 4, .use [99], .assign [100] 5]
    let start := Tracker.new [[99], [100], [101], [99]] [] true
    (start.run ops).unused = [[98], [99], [100], [101]] ∧
      StoreKept (start.run [.declare [97] 1]) (start.run ops) := by
  intro ops start
  obtain ⟨hunused, -, hkept⟩ := unused_after_run [[99], [100], [101], [99]] [] true ops
  exact ⟨hunused.trans (by decide), (hkept [.declare [97] 1] (ops.drop 1) rfl).1⟩

end TwigLint.Tracker
