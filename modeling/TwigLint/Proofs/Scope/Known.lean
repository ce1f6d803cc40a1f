import TwigLint.Proofs.Scope.Moments
import TwigLint.Proofs.Scope.Unused

/-! # Names that are bound from the start

The inputs of a component and the variables that are known from the settings are bound in the root
scope before a walk starts.  The root scope keeps such a name, so that only an isolated scope can
make it invisible.  A known variable covers the input of its name: from then on, no name refers to
that input.
-/

namespace TwigLint.Tracker

/-! ## The root scope -/

/-- The root scope binds the name. -/
def Rooted (t : Tracker) (name : Text) : Prop :=
  ∃ inner root, t.scopes = inner ++ [root] ∧ (root.names.lookup name).isSome = true

theorem isSome_lookup_cons {names : List (Text × Nat)} {name : Text}
    (h : (names.lookup name).isSome = true) (entry : Text × Nat) :
    ((entry :: names).lookup name).isSome = true := by
  rw [List.lookup_cons]
  split
  · rfl
  · exact h

theorem rooted_bindName {t : Tracker} (houter : t.outer = []) (b : Binding) :
    (t.bindName b).Rooted b.name := by
  refine ⟨[], (t.bindName b).current, by rw [scopes, bindName, houter]; rfl, ?_⟩
  rw [bindName, List.lookup_cons_self]
  rfl

namespace Rooted

variable {t : Tracker} {name : Text}

theorem changes {t' : Tracker} (h : t.Rooted name) (ht : Changes t t') : t'.Rooted name := by
  obtain ⟨inner, root, hscopes, hroot⟩ := h
  cases ht with
  | same => exact ⟨inner, root, hscopes, hroot⟩
  | mark _ => exact ⟨inner, root, hscopes, hroot⟩
  | bind b seq _ =>
    cases inner with
    | nil =>
      obtain ⟨rfl, houter⟩ := List.cons.inj hscopes
      exact ⟨[], _, congrArg _ houter, isSome_lookup_cons hroot _⟩
    | cons first inner =>
      obtain ⟨-, houter⟩ := List.cons.inj hscopes
      exact ⟨(t.bindName b).current :: inner, root, congrArg _ houter, hroot⟩

theorem pop (h : t.Rooted name) : t.pop.Rooted name := by
  obtain ⟨inner, root, hscopes, hroot⟩ := h
  cases inner with
  | nil =>
    -- the root scope stays open
    have houter : t.outer = [] := (List.cons.inj hscopes).2
    have hpop : t.pop = t := by
      unfold Tracker.pop
      rw [houter]
    rw [hpop]
    exact ⟨[], root, hscopes, hroot⟩
  | cons first inner =>
    exact ⟨inner, root, (pop_of_scopes_eq hscopes (by simp)).1, hroot⟩

theorem push (h : t.Rooted name) (isolated : Bool) (owner : Option Node) :
    (t.push isolated owner).Rooted name := by
  obtain ⟨inner, root, hscopes, hroot⟩ := h
  exact ⟨_ :: inner, root, congrArg _ hscopes, hroot⟩

theorem apply (h : t.Rooted name) (op : ScopeOp) : (t.apply op).Rooted name :=
  holds_apply (P := (Rooted · name)) changes push pop h op

theorem run (h : t.Rooted name) (ops : List ScopeOp) : (t.run ops).Rooted name :=
  holds_run (P := (Rooted · name)) apply h ops

end Rooted

/-! ## Walls -/

theorem injected_run (t : Tracker) (ops : List ScopeOp) : (t.run ops).injected = t.injected := by
  let P (t' : Tracker) : Prop := t'.injected = t.injected
  have happly {t' : Tracker} (h : P t') (op : ScopeOp) : P (t'.apply op) :=
    holds_apply (P := P) (fun h hchange => hchange.continues.injected.trans h) (fun h _ _ => h)
      (fun h => holds_pop (P := P) h fun _ _ _ => h) h op
  exact holds_run (P := P) happly rfl ops

/-- The scope of a node isolates, and no scope from the innermost one up to it binds the name. -/
structure Walled (t : Tracker) (p : Node) (name : Text) : Prop where
  isolates : isolates p = true
  scopes : ∃ inner s outer, t.scopes = inner ++ s :: outer ∧ s.isolated = true ∧
    s.owner = some p ∧ ∀ s' ∈ inner ++ [s], s'.names.lookup name = none

theorem Valid.knows_eq_false {t : Tracker} (h : t.Valid) (name : Text) :
    t.knows name = false ↔ findIn name t.scopes = none ∧ t.injected.lookup name = none := by
  rw [knows, h.isSome_resolve?, Tracker.resolve?]
  cases findIn name t.scopes <;> simp

/-- A use makes no name visible and none invisible. -/
theorem Valid.knows_use {t : Tracker} (h : t.Valid) (used name : Text) :
    (t.use used).knows name = t.knows name := by
  have hvalid : (t.use used).Valid := h.apply (.use used)
  have hscopes : (t.use used).scopes = t.scopes := by
    unfold use
    split <;> rfl
  have hinjected : (t.use used).injected = t.injected := injected_run t [.use used]
  have hiff : (t.use used).knows name = false ↔ t.knows name = false := by
    rw [h.knows_eq_false, hvalid.knows_eq_false, hscopes, hinjected]
  rw [Bool.eq_iff_iff, ← not_iff_not, Bool.not_eq_true, Bool.not_eq_true, hiff]

/-- A name that the root scope binds is invisible exactly behind a wall, unless it is visible
everywhere. -/
theorem Rooted.knows_iff {t : Tracker} {name : Text} (h : t.Rooted name) (hvalid : t.Valid)
    {around : List Node} (henclosed : t.Enclosed around) :
    t.knows name = false ↔ t.injected.lookup name = none ∧ ∃ p ∈ around, t.Walled p name := by
  rw [hvalid.knows_eq_false]
  constructor
  · rintro ⟨hnone, hinjected⟩
    obtain ⟨inner, root, hscopes, hroot⟩ := h
    obtain ⟨inner, s, outer, heq, hs, hunbound⟩ := isolated_of_findIn hscopes hroot hnone
    obtain ⟨p, hp, howner, hisolates⟩ := henclosed s (heq ▸ by simp) hs
    exact ⟨hinjected, p, hp, hisolates, inner, s, outer, heq, hs, howner, hunbound⟩
  · rintro ⟨hinjected, p, -, -, inner, s, outer, heq, hs, -, hunbound⟩
    rw [heq]
    exact ⟨findIn_unbound hunbound hs outer, hinjected⟩

/-! ## Covered inputs -/

/-- No input is at the position. -/
def NoInput (t : Tracker) (i : Nat) : Prop := ∀ b, t.store[i]? = some b → b.kind ≠ .input

theorem NoInput.changes {t t' : Tracker} {i : Nat} (h : t.NoInput i) (ht : Changes t t') :
    t'.NoInput i := by
  intro b hb
  cases ht with
  | same => exact h b hb
  | mark _ =>
    rw [Array.getElem?_modify] at hb
    split at hb
    · obtain ⟨c, hc, rfl⟩ := Option.map_eq_some_iff.mp hb
      exact h c hc
    · exact h b hb
  | bind c seq hc =>
    simp only [bindName, Array.getElem?_push] at hb
    split at hb
    · cases hb
      exact hc
    · exact h b hb

/-- The name refers to an input in no scope. -/
structure Covered (t : Tracker) (name : Text) : Prop where
  scopes : ∀ s ∈ t.scopes, ∀ i, s.names.lookup name = some i → t.NoInput i
  injected : ∀ i, t.injected.lookup name = some i → t.NoInput i

namespace Covered

variable {t : Tracker} {name : Text}

theorem kind?_ne (h : t.Covered name) : t.kind? name ≠ some .input := by
  intro hkind
  obtain ⟨b, hb, hinput⟩ := Option.map_eq_some_iff.mp hkind
  obtain ⟨i, hi, hb⟩ := Option.bind_eq_some_iff.mp hb
  unfold Tracker.resolve? at hi
  split at hi
  · rename_i j hj
    cases hi
    obtain ⟨s, hs, hlookup⟩ := lookup_of_findIn hj
    exact h.scopes s hs _ hlookup b hb hinput
  · exact h.injected _ hi b hb hinput

theorem changes {t' : Tracker} (h : t.Covered name) (ht : Changes t t') : t'.Covered name := by
  have hkept (i : Nat) (hi : t.NoInput i) : t'.NoInput i := hi.changes ht
  cases ht with
  | same => exact h
  | mark _ =>
    exact ⟨fun s hs i hi => hkept i (h.scopes s hs i hi), fun i hi => hkept i (h.injected i hi)⟩
  | bind b seq hb =>
    refine ⟨fun s hs i hi => ?_, fun i hi => hkept i (h.injected i hi)⟩
    rcases List.mem_cons.mp hs with rfl | hs
    · simp only [bindName, List.lookup_cons] at hi
      split at hi
      · -- the name is bound to something new, which is no input
        cases hi
        intro c hc
        simp only [bindName, Array.getElem?_push_size] at hc
        cases hc
        exact hb
      · exact hkept i (h.scopes _ (List.mem_cons_self ..) i hi)
    · exact hkept i (h.scopes s (List.mem_cons_of_mem _ hs) i hi)

theorem push (h : t.Covered name) (isolated : Bool) (owner : Option Node) :
    (t.push isolated owner).Covered name := by
  refine ⟨fun s hs i hi => ?_, h.injected⟩
  rcases List.mem_cons.mp hs with rfl | hs
  · cases hi
  · exact h.scopes s hs i hi

theorem pop (h : t.Covered name) : t.pop.Covered name :=
  holds_pop (P := (Covered · name)) h fun _ _ houter =>
    ⟨fun s hs => h.scopes s (List.mem_cons_of_mem _ (houter ▸ hs)), h.injected⟩

theorem apply (h : t.Covered name) (op : ScopeOp) : (t.apply op).Covered name :=
  holds_apply (P := (Covered · name)) changes push pop h op

theorem run (h : t.Covered name) (ops : List ScopeOp) : (t.run ops).Covered name :=
  holds_run (P := (Covered · name)) apply h ops

/-- Nothing uses the input. -/
theorem usedAlong (h : t.Covered name) (ops : List ScopeOp) :
    (t.usedAlong ops).contains (.input, name) = false := by
  induction ops generalizing t with
  | nil => rfl
  | cons op ops ih =>
    rw [Tracker.usedAlong, List.contains_append, ih (h.apply op), Bool.or_false]
    cases op with
    | use other =>
      rw [usedBy, Bool.eq_false_iff, ne_eq, List.contains_iff_mem]
      intro hmem
      obtain ⟨kind, hkind, heq⟩ := List.mem_map.mp hmem
      cases heq
      exact h.kind?_ne (Option.mem_toList.mp hkind)
    | _ => rfl

end Covered

/-! ## Before a walk -/

theorem foldl_inject (t : Tracker) (names : List Text) :
    names.foldl inject t = t.run (names.map .inject) := by
  rw [run, List.foldl_map]
  rfl

/-- The one scope of a new tracker is not isolated. -/
theorem enclosed_new (inputs injected : List Text) (report : Bool) (around : List Node) :
    (Tracker.new inputs injected report).Enclosed around := by
  let P (t : Tracker) : Prop := t.current.isolated = false
  have hinput {t : Tracker} (h : P t) (name : Text) : P (t.addInput name) :=
    holds_addInput h (fun _ _ => h) name
  have hopen : P (Tracker.new inputs injected report) :=
    holds_new (P := fun _ _ t => P t) rfl (fun h _ => h) hinput inputs injected
  intro s hs hisolated
  rw [Tracker.scopes, (new_scopes _ _ _).1, List.mem_singleton] at hs
  rw [hs, hopen] at hisolated
  cases hisolated

/-- The names that are visible everywhere are those that were provided. -/
theorem injected_new (inputs injected : List Text) (report : Bool) (name : Text) :
    (Tracker.new inputs injected report).injected.lookup name = none ↔ name ∉ injected := by
  let P (provided : List Text) (t : Tracker) : Prop :=
    ∀ name, t.injected.lookup name = none ↔ name ∉ provided
  have hprovide {provided : List Text} {t : Tracker} (h : P provided t) (first : Text) :
      P (provided ++ [first]) (t.provide first) := by
    intro name
    rw [provide, List.lookup_cons, List.mem_append, List.mem_singleton, not_or, ← h name]
    by_cases heq : name = first
    · simp [heq]
    · simp [beq_false_of_ne heq, heq]
  have hinput {provided : List Text} {t : Tracker} (h : P provided t) (name : Text) :
      P provided (t.addInput name) :=
    holds_addInput h (fun _ _ => h) name
  exact holds_new (P := fun provided _ t => P provided t) (by simp [P]) hprovide hinput inputs
    injected name

/-- In a new tracker the name of an input refers to an input. -/
theorem kind?_new {inputs : List Text} {name : Text} (h : name ∈ inputs) (injected : List Text)
    (report : Bool) : (Tracker.new inputs injected report).kind? name = some .input := by
  let P (t : Tracker) : Prop :=
    ∀ entry ∈ t.current.names, ∃ b, t.store[entry.2]? = some b ∧ b.kind = .input
  have hprovide {t : Tracker} (h : P t) (name : Text) : P (t.provide name) :=
    fun entry hentry => (storeKept_push rfl : StoreKept t _).kind (h entry hentry)
  have hinput {t : Tracker} (h : P t) (name : Text) : P (t.addInput name) := by
    refine holds_addInput h (fun b hb entry hentry => ?_) name
    rcases List.mem_cons.mp hentry with rfl | hentry
    · exact ⟨b, Array.getElem?_push_size, hb⟩
    · exact (storeKept_push rfl : StoreKept t _).kind (h entry hentry)
  have hinputs : P (Tracker.new inputs injected report) :=
    holds_new (P := fun _ _ t => P t) (List.forall_mem_nil _) hprovide hinput inputs injected
  obtain ⟨i, hi⟩ := Option.isSome_iff_exists.mp
    (((seeded_new inputs injected report).visible name).mpr h)
  obtain ⟨b, hb, hkind⟩ := hinputs _ (mem_of_lookup hi)
  have hresolve : (Tracker.new inputs injected report).resolve? name = some i := by
    simp [Tracker.resolve?, Tracker.scopes, findIn, hi]
  rw [kind?, lookup?, hresolve, Option.bind_some, hb, Option.map_some, hkind]

theorem kind?_inject_of_ne {t : Tracker} (h : t.Valid) {name other : Text} (hne : name ≠ other) :
    (t.inject other).kind? name = t.kind? name := by
  have hresolve : (t.inject other).resolve? name = t.resolve? name :=
    resolve?_bindName_of_ne (b := .provided other) hne.symm
  rw [kind?, kind?, lookup?, lookup?, hresolve]
  cases hi : t.resolve? name with
  | none => rfl
  | some i =>
    have hlt := h.lt_of_resolve? hi
    simp only [Option.bind_some, inject, bindName, Array.getElem?_push, Nat.ne_of_lt hlt, if_false]

section Known

variable {t : Tracker} {known : List Text} {name : Text}

theorem rooted_known (houter : t.outer = []) (h : name ∈ known) :
    (known.foldl inject t).Rooted name := by
  induction known generalizing t with
  | nil => cases h
  | cons first known ih =>
    rcases List.mem_cons.mp h with rfl | h
    · rw [List.foldl_cons, foldl_inject]
      exact (rooted_bindName houter (.provided name)).run _
    · exact ih houter h

theorem changes_inject (t : Tracker) (name : Text) : Changes t (t.inject name) :=
  changes_apply (show (ScopeOp.inject name).isChange = true from rfl) t

theorem covered_inject (houter : t.outer = [])
    (hinjected : ∀ i, t.injected.lookup name = some i → t.NoInput i) :
    (t.inject name).Covered name := by
  have hkept {i : Nat} (hi : t.NoInput i) : (t.inject name).NoInput i :=
    hi.changes (changes_inject t name)
  refine ⟨fun s hs i hi b hb => ?_, fun i hi => hkept (hinjected i hi)⟩
  obtain rfl : s = (t.inject name).current := by
    simpa [Tracker.scopes, inject, bindName, houter] using hs
  simp only [inject, bindName, Binding.provided, List.lookup_cons_self, Option.some.injEq] at hi hb
  rw [← hi, Array.getElem?_push_size] at hb
  cases hb
  simp

theorem covered_known (houter : t.outer = [])
    (hinjected : ∀ i, t.injected.lookup name = some i → t.NoInput i) (h : name ∈ known) :
    (known.foldl inject t).Covered name := by
  induction known generalizing t with
  | nil => cases h
  | cons first known ih =>
    rcases List.mem_cons.mp h with rfl | h
    · rw [List.foldl_cons, foldl_inject]
      exact (covered_inject houter hinjected).run _
    · refine ih houter (fun i hi => ?_) h
      exact (hinjected i hi).changes (changes_inject t first)

theorem kind?_unknown (hvalid : t.Valid) (h : name ∉ known) :
    (known.foldl inject t).kind? name = t.kind? name := by
  induction known generalizing t with
  | nil => rfl
  | cons first known ih =>
    obtain ⟨hne, h⟩ := not_or.mp (List.mem_cons.not.mp h)
    exact (ih (hvalid.apply (.inject first)) h).trans (kind?_inject_of_ne hvalid hne)

end Known

/-- The names that are visible everywhere refer to no inputs in a new tracker. -/
theorem noInput_new (inputs injected : List Text) (report : Bool) :
    ∀ entry ∈ (Tracker.new inputs injected report).injected,
      (Tracker.new inputs injected report).NoInput entry.2 := by
  let P (t : Tracker) : Prop :=
    ∀ entry ∈ t.injected, ∃ b, t.store[entry.2]? = some b ∧ b.kind = .injected
  have hprovide {t : Tracker} (h : P t) (name : Text) : P (t.provide name) := by
    intro entry hentry
    rcases List.mem_cons.mp hentry with rfl | hentry
    · exact ⟨.provided name, Array.getElem?_push_size, rfl⟩
    · exact (storeKept_push rfl : StoreKept t _).kind (h entry hentry)
  have hinput {t : Tracker} (h : P t) (name : Text) : P (t.addInput name) :=
    holds_addInput h (fun b _ entry hentry =>
      (storeKept_push rfl : StoreKept t _).kind (h entry hentry)) name
  have hprovides : P (Tracker.new inputs injected report) :=
    holds_new (P := fun _ _ t => P t) (List.forall_mem_nil _) hprovide hinput inputs injected
  intro entry hentry b hb hkind
  obtain ⟨c, hc, hinjected⟩ := hprovides entry hentry
  obtain rfl : b = c := Option.some.inj (hb ▸ hc)
  rw [hkind] at hinjected
  cases hinjected

/-! ## Inputs in the report -/

theorem usedAlong_append (t : Tracker) (before behind : List ScopeOp) :
    t.usedAlong (before ++ behind) = t.usedAlong before ++ (t.run before).usedAlong behind := by
  induction before generalizing t with
  | nil => rfl
  | cons op before ih =>
    rw [List.cons_append, usedAlong, usedAlong, ih, List.append_assoc]
    rfl

/-- A use marks the input that its name refers to. -/
theorem contains_usedAlong {t : Tracker} {before behind : List ScopeOp} {name : Text}
    {kind : BindingKind} (h : (t.run before).kind? name = some kind) :
    (t.usedAlong (before ++ .use name :: behind)).contains (kind, name) = true := by
  rw [usedAlong_append, usedAlong, usedBy, h]
  simp

/-- A name that refers to what it referred to before has the kind that it had. -/
theorem StoreKept.kind? {t t' : Tracker} (h : StoreKept t t') {name : Text} {kind : BindingKind}
    (hsame : t'.resolve? name = t.resolve? name) (hkind : t.kind? name = some kind) :
    t'.kind? name = some kind := by
  obtain ⟨b, hb, rfl⟩ := Option.map_eq_some_iff.mp hkind
  obtain ⟨i, hi, hb⟩ := Option.bind_eq_some_iff.mp hb
  obtain ⟨b', hb', hlater⟩ := h i b hb
  rw [Tracker.kind?, lookup?, hsame, hi, Option.bind_some, hb', Option.map_some, hlater.2]

/-- The inputs that nothing has used, as far as no local name is listed in their place. -/
def idleInputs (t : Tracker) : List Text :=
  (t.namesOf .input).filter fun name => !t.usedAs .input name && !t.unusedLocals.contains name

/-- Where inputs are reported, the report lists the unused local names, and then the idle inputs. -/
theorem unused_run (inputs injected : List Text) (ops : List ScopeOp) :
    let t := (Tracker.new inputs injected true).run ops
    t.unused = t.unusedLocals ++ t.idleInputs := by
  intro t
  have hreport : t.reportUnusedInputs = true :=
    (reportUnusedInputs_run _ ops).trans (seeded_new inputs injected true).reports
  have hnodup : (t.namesOf .input).Nodup := by
    rw [namesOf_input_new]
    exact nodup_eraseDups inputs
  simp only [unused, hreport, if_true, unusedInputs_eq hnodup, List.filter_filter, idleInputs]
  congr 2
  funext name
  exact Bool.and_comm ..

/-- An input is idle exactly if no use ever referred to it, and no local name is in its place. -/
theorem mem_idleInputs {inputs injected : List Text} {ops : List ScopeOp} {name : Text}
    (h : name ∈ inputs) :
    name ∈ ((Tracker.new inputs injected true).run ops).idleInputs ↔
      ((Tracker.new inputs injected true).usedAlong ops).contains (.input, name) = false ∧
        name ∉ ((Tracker.new inputs injected true).run ops).unusedLocals := by
  rw [idleInputs, List.mem_filter, namesOf_input_new,
    usedAs_run (named_new inputs injected true) ops (by decide),
    (seeded_new inputs injected true).usedAs (.inr rfl) (by decide)]
  simp [List.mem_eraseDups, h]

end TwigLint.Tracker
