import TwigLint.Lint.Scope.Operation
import Mathlib.Data.List.Basic

/-! # Runs of scope operations

What one operation can do to a tracker, and what follows for lists of operations in which every
opened scope is closed again: the scopes around are not touched, the innermost one only receives
names, and bindings only become used.
-/

namespace TwigLint

namespace Binding

/-- The second binding is the first one at a later time: it may have become used. -/
def Later (b b' : Binding) : Prop :=
  (b.used = true → b'.used = true) ∧ b' = { b with used := b'.used }

theorem Later.refl (b : Binding) : b.Later b := ⟨id, rfl⟩

theorem Later.trans {a b c : Binding} (hab : a.Later b) (hbc : b.Later c) : a.Later c := by
  refine ⟨fun h => hbc.1 (hab.1 h), ?_⟩
  rw [hbc.2, hab.2]

theorem later_mark (b : Binding) : b.Later { b with used := true } := ⟨fun _ => rfl, rfl⟩

end Binding

/-- The operation opens and closes no scope. -/
def ScopeOp.isChange : ScopeOp → Bool
  | .push _ _ | .pop => false
  | _ => true

namespace Tracker

/-! ## Single operations -/

/-- What an operation can do that opens and closes no scope: nothing, mark the binding of a visible
name, or bind a name in the innermost scope. -/
inductive Changes (t : Tracker) : Tracker → Prop
  | same : Changes t t
  | mark {name : Text} {i : Nat} (h : t.resolve? name = some i) :
      Changes t { t with store := t.store.modify i fun b => { b with used := true } }
  | bind (b : Binding) (seq : Nat) (h : b.kind ≠ .input) : Changes t { t.bindName b with seq }

theorem changes_declare (t : Tracker) (name : Text) (line : Int) {kind : BindingKind}
    (h : kind ≠ .input) : Changes t (t.declare name line kind) :=
  .bind ⟨name, line, t.seq + 1, false, kind⟩ (t.seq + 1) h

theorem changes_apply {op : ScopeOp} (h : op.isChange = true) (t : Tracker) :
    Changes t (t.apply op) := by
  cases op with
  | push isolated owner => cases h
  | pop => cases h
  | declare name line => exact changes_declare t name line (by decide)
  | declareParam name line => exact changes_declare t name line (by decide)
  | declareImport name line => exact changes_declare t name line (by decide)
  | inject name => exact .bind (.provided name) t.seq (by simp [Binding.provided])
  | assign name line =>
    simp only [apply, assign]
    split
    · split
      · exact changes_declare t name line (by decide)
      · exact .same
    · exact changes_declare t name line (by decide)
  | use name =>
    simp only [apply, use]
    split
    · rename_i i hi
      exact .mark hi
    · exact .same

@[simp] theorem run_nil (t : Tracker) : t.run [] = t := rfl

@[simp] theorem run_cons (t : Tracker) (op : ScopeOp) (ops : List ScopeOp) :
    t.run (op :: ops) = (t.apply op).run ops := rfl

@[simp] theorem run_append (t : Tracker) (ops ops' : List ScopeOp) :
    t.run (ops ++ ops') = (t.run ops).run ops' := List.foldl_append

/-! ## Invariants -/

section

variable {P : Tracker → Prop}

/-- What survives changes, opening a scope and closing one survives every operation. -/
theorem holds_apply (hchange : ∀ {t t' : Tracker}, P t → Changes t t' → P t')
    (hpush : ∀ {t : Tracker}, P t → ∀ isolated owner, P (t.push isolated owner))
    (hpop : ∀ {t : Tracker}, P t → P t.pop) {t : Tracker} (h : P t) (op : ScopeOp) :
    P (t.apply op) := by
  by_cases hop : op.isChange = true
  · exact hchange h (changes_apply hop t)
  · cases op with
    | push isolated owner => exact hpush h isolated owner
    | pop => exact hpop h
    | _ => exact absurd rfl hop

/-- Closing a scope leaves the one below it, unless there is none. -/
theorem holds_pop {t : Tracker} (h : P t)
    (hpop : ∀ s rest, t.outer = s :: rest → P { t with current := s, outer := rest }) :
    P t.pop := by
  unfold pop
  split
  · exact h
  · rename_i s rest houter
    exact hpop s rest houter

/-- What survives every operation survives a run. -/
theorem holds_run (happly : ∀ {t : Tracker}, P t → ∀ op, P (t.apply op)) {t : Tracker} (h : P t)
    (ops : List ScopeOp) : P (t.run ops) := by
  induction ops generalizing t with
  | nil => exact h
  | cons op ops ih => exact ih (happly h op)

end

/-- What holds of a tracker without names, and survives providing names and adding inputs, holds of
a new tracker.  It may depend on the names that have been provided and the inputs that have been
added. -/
theorem holds_new {P : List Text → List Text → Tracker → Prop} {report : Bool}
    (hempty : P [] [] ⟨#[], ⟨[], false, none⟩, [], [], 0, report⟩)
    (hprovide : ∀ {provided t}, P provided [] t →
      ∀ name, P (provided ++ [name]) [] (t.provide name))
    (hinput : ∀ {provided added t}, P provided added t →
      ∀ name, P provided (added ++ [name]) (t.addInput name))
    (inputs injected : List Text) : P injected inputs (Tracker.new inputs injected report) := by
  have hprovided (names : List Text) {provided : List Text} {t : Tracker} (h : P provided [] t) :
      P (provided ++ names) [] (names.foldl provide t) := by
    induction names generalizing provided t with
    | nil => rwa [List.append_nil]
    | cons name names ih => simpa using ih (hprovide h name)
  have hadded (names : List Text) {added : List Text} {t : Tracker} (h : P injected added t) :
      P injected (added ++ names) (names.foldl addInput t) := by
    induction names generalizing added t with
    | nil => rwa [List.append_nil]
    | cons name names ih => simpa using ih (hinput h name)
  exact hadded inputs (hprovided injected hempty)

/-- Adding an input binds its name, unless it is bound already. -/
theorem holds_addInput {P : Tracker → Prop} {t : Tracker} (h : P t)
    (hbind : ∀ b : Binding, b.kind = .input → P (t.bindName b)) (name : Text) :
    P (t.addInput name) := by
  unfold addInput
  split
  · exact h
  · exact hbind _ rfl

/-! ## Later trackers -/

/-- Bindings stay where they are and only become used. -/
def StoreKept (t t' : Tracker) : Prop :=
  ∀ (i : Nat) (b : Binding), t.store[i]? = some b → ∃ b', t'.store[i]? = some b' ∧ b.Later b'

theorem StoreKept.refl (t : Tracker) : StoreKept t t := fun _ b h => ⟨b, h, .refl b⟩

theorem StoreKept.trans {t u v : Tracker} (htu : StoreKept t u) (huv : StoreKept u v) :
    StoreKept t v := by
  intro i b hb
  obtain ⟨c, hc, hbc⟩ := htu i b hb
  obtain ⟨d, hd, hcd⟩ := huv i c hc
  exact ⟨d, hd, hbc.trans hcd⟩

/-- What a binding keeps when it becomes used is true of the binding in its place later on. -/
theorem StoreKept.binding {P : Binding → Prop} (hP : ∀ {b b' : Binding}, b.Later b' → P b → P b')
    {t t' : Tracker} (h : StoreKept t t') {i : Nat} (hi : ∃ b, t.store[i]? = some b ∧ P b) :
    ∃ b, t'.store[i]? = some b ∧ P b := by
  obtain ⟨b, hb, hholds⟩ := hi
  obtain ⟨b', hb', hlater⟩ := h i b hb
  exact ⟨b', hb', hP hlater hholds⟩

theorem StoreKept.used {t t' : Tracker} (h : StoreKept t t') {i : Nat}
    (hi : ∃ b, t.store[i]? = some b ∧ b.used = true) :
    ∃ b, t'.store[i]? = some b ∧ b.used = true :=
  h.binding (fun hlater => hlater.1) hi

theorem StoreKept.name {t t' : Tracker} (h : StoreKept t t') {i : Nat} {name : Text}
    (hi : ∃ b, t.store[i]? = some b ∧ b.name = name) :
    ∃ b, t'.store[i]? = some b ∧ b.name = name :=
  h.binding (fun hlater hname => by rw [hlater.2, ← hname]) hi

theorem StoreKept.kind {t t' : Tracker} (h : StoreKept t t') {i : Nat} {kind : BindingKind}
    (hi : ∃ b, t.store[i]? = some b ∧ b.kind = kind) :
    ∃ b, t'.store[i]? = some b ∧ b.kind = kind :=
  h.binding (fun hlater hkind => by rw [hlater.2, ← hkind]) hi

/-- The second tracker is the first one at a later time, with the same scopes open: only the
innermost one may have more names. -/
structure Continues (t t' : Tracker) : Prop where
  outer : t'.outer = t.outer
  injected : t'.injected = t.injected
  isolated : t'.current.isolated = t.current.isolated
  owner : t'.current.owner = t.current.owner
  names : t.current.names <:+ t'.current.names
  store : StoreKept t t'

theorem Continues.refl (t : Tracker) : Continues t t :=
  ⟨rfl, rfl, rfl, rfl, List.suffix_refl _, .refl t⟩

theorem Continues.trans {t u v : Tracker} (htu : Continues t u) (huv : Continues u v) :
    Continues t v where
  outer := huv.outer.trans htu.outer
  injected := huv.injected.trans htu.injected
  isolated := huv.isolated.trans htu.isolated
  owner := huv.owner.trans htu.owner
  names := htu.names.trans huv.names
  store := htu.store.trans huv.store

theorem storeKept_mark (t : Tracker) (i : Nat) :
    StoreKept t { t with store := t.store.modify i fun b => { b with used := true } } := by
  intro j b hb
  by_cases hij : i = j
  · exact ⟨{ b with used := true }, by simp [Array.getElem?_modify, hij, hb], b.later_mark⟩
  · exact ⟨b, by simpa [Array.getElem?_modify, hij] using hb, .refl b⟩

theorem storeKept_push {t t' : Tracker} {b : Binding} (h : t'.store = t.store.push b) :
    StoreKept t t' := by
  intro i c hc
  have hi : i < t.store.size := (Array.getElem?_eq_some_iff.mp hc).1
  refine ⟨c, ?_, .refl c⟩
  rw [h, Array.getElem?_push, if_neg (Nat.ne_of_lt hi), hc]

theorem Changes.continues {t t' : Tracker} (h : Changes t t') : Continues t t' := by
  cases h with
  | same => exact .refl t
  | mark h => exact ⟨rfl, rfl, rfl, rfl, List.suffix_refl _, storeKept_mark t _⟩
  | bind b seq h => exact ⟨rfl, rfl, rfl, rfl, List.suffix_cons .., storeKept_push rfl⟩

/-! ## Matched operations -/

/-- Operations in which every opened scope is closed again, and none is closed that was open
before. -/
inductive Matched : List ScopeOp → Prop
  | nil : Matched []
  | change {op : ScopeOp} {ops : List ScopeOp} (h : op.isChange = true) (rest : Matched ops) :
      Matched (op :: ops)
  | scope {isolated : Bool} {owner : Option Node} {ops ops' : List ScopeOp} (inner : Matched ops)
      (rest : Matched ops') : Matched (.push isolated owner :: ops ++ .pop :: ops')

theorem Matched.append {ops ops' : List ScopeOp} (h : Matched ops) (h' : Matched ops') :
    Matched (ops ++ ops') := by
  induction h with
  | nil => exact h'
  | change h rest ih => exact .change h ih
  | scope inner rest _ ih => simpa using Matched.scope inner ih

theorem matched_of_isChange {ops : List ScopeOp} (h : ∀ op ∈ ops, op.isChange = true) :
    Matched ops := by
  induction ops with
  | nil => exact .nil
  | cons op ops ih =>
    exact .change (h op (List.mem_cons_self ..)) (ih fun o ho => h o (List.mem_cons_of_mem _ ho))

/-- A scope that is opened and closed again leaves only its bindings behind. -/
theorem Continues.pop {t u : Tracker} {isolated : Bool} {owner : Option Node}
    (h : Continues (t.push isolated owner) u) :
    Continues t u.pop ∧ u.pop.current = t.current := by
  have hpop : u.pop = { u with current := t.current, outer := t.outer } := by
    simp [Tracker.pop, h.outer, push]
  rw [hpop]
  exact ⟨⟨rfl, h.injected, rfl, rfl, List.suffix_refl _, h.store⟩, rfl⟩

/-- Matched operations leave the same scopes open. -/
theorem Matched.continues {ops : List ScopeOp} (h : Matched ops) (t : Tracker) :
    Continues t (t.run ops) := by
  induction h generalizing t with
  | nil => exact .refl t
  | change h rest ih => exact (changes_apply h t).continues.trans (ih _)
  | scope inner rest ihInner ihRest =>
    rw [List.cons_append, run_cons, run_append, run_cons]
    exact (ihInner _).pop.1.trans (ihRest _)

/-! ## Contained operations -/

/-- Matched operations that bind names only inside the scopes that they open. -/
inductive Contained : List ScopeOp → Prop
  | nil : Contained []
  | use {name : Text} {ops : List ScopeOp} (rest : Contained ops) : Contained (.use name :: ops)
  | scope {isolated : Bool} {owner : Option Node} {ops ops' : List ScopeOp} (inner : Matched ops)
      (rest : Contained ops') : Contained (.push isolated owner :: ops ++ .pop :: ops')

theorem Contained.append {ops ops' : List ScopeOp} (h : Contained ops) (h' : Contained ops') :
    Contained (ops ++ ops') := by
  induction h with
  | nil => exact h'
  | use rest ih => exact .use ih
  | scope inner rest ih => simpa using Contained.scope inner ih

theorem Contained.matched {ops : List ScopeOp} (h : Contained ops) : Matched ops := by
  induction h with
  | nil => exact .nil
  | use rest ih => exact .change rfl ih
  | scope inner rest ih => exact .scope inner ih

theorem current_use (t : Tracker) (name : Text) : (t.use name).current = t.current := by
  unfold Tracker.use
  split <;> rfl

/-- Contained operations leave the names of all open scopes as they are. -/
theorem Contained.current {ops : List ScopeOp} (h : Contained ops) (t : Tracker) :
    (t.run ops).current = t.current := by
  induction h generalizing t with
  | nil => rfl
  | use rest ih =>
    rw [run_cons, ih]
    exact current_use t _
  | scope inner rest ih =>
    rw [List.cons_append, run_cons, run_append, run_cons, ih]
    exact (inner.continues _).pop.2

end Tracker

end TwigLint
