import TwigLint.Proofs.Scope.Lookup
import TwigLint.Proofs.Scope.Run

/-! # Isolated scopes

Trackers are reached from new ones by operations.  In such a tracker all positions that names are
bound to lie in the store, and the names that are visible everywhere are used from the start.  It
follows that an isolated scope is opaque: while it is open, no name refers to a binding that was
there before, apart from those names, and nothing that was there before changes.
-/

namespace TwigLint.Tracker

/-! ## Reachable trackers -/

/-- The tracker comes from a new one by operations. -/
def Reachable (t : Tracker) : Prop :=
  ∃ (inputs injected : List Text) (report : Bool) (ops : List ScopeOp),
    t = (Tracker.new inputs injected report).run ops

/-- Names are bound to positions in the store, and the names that are visible everywhere count as
used. -/
structure Valid (t : Tracker) : Prop where
  names : ∀ s ∈ t.scopes, ∀ entry ∈ s.names, entry.2 < t.store.size
  injected : ∀ entry ∈ t.injected, ∃ b, t.store[entry.2]? = some b ∧ b.used = true

theorem Valid.injected_of_storeKept {t t' : Tracker} (h : t.Valid) (hstore : StoreKept t t')
    (hinjected : t'.injected = t.injected) :
    ∀ entry ∈ t'.injected, ∃ b, t'.store[entry.2]? = some b ∧ b.used = true := by
  intro entry hentry
  rw [hinjected] at hentry
  exact hstore.used (h.injected entry hentry)

theorem Valid.bindName {t : Tracker} (h : t.Valid) (b : Binding) : (t.bindName b).Valid := by
  refine ⟨?_, h.injected_of_storeKept (storeKept_push rfl) rfl⟩
  intro s hs entry hentry
  have hsize : (t.bindName b).store.size = t.store.size + 1 := Array.size_push ..
  rw [hsize]
  rcases List.mem_cons.mp hs with rfl | hs
  · rcases List.mem_cons.mp hentry with rfl | hentry
    · exact Nat.lt_succ_self _
    · exact Nat.lt_succ_of_lt (h.names _ (List.mem_cons_self ..) entry hentry)
  · exact Nat.lt_succ_of_lt (h.names s (List.mem_cons_of_mem _ hs) entry hentry)

theorem Valid.changes {t t' : Tracker} (h : t.Valid) (ht : Changes t t') : t'.Valid := by
  cases ht with
  | same => exact h
  | mark hi =>
    refine ⟨fun s hs entry hentry => ?_, h.injected_of_storeKept (storeKept_mark t _) rfl⟩
    simpa using h.names s hs entry hentry
  | bind b seq hb => exact ⟨(h.bindName b).names, (h.bindName b).injected⟩

theorem Valid.push {t : Tracker} (h : t.Valid) (isolated : Bool) (owner : Option Node) :
    (t.push isolated owner).Valid := by
  refine ⟨fun s hs entry hentry => ?_, h.injected⟩
  rcases List.mem_cons.mp hs with rfl | hs
  · cases hentry
  · exact h.names s hs entry hentry

theorem Valid.pop {t : Tracker} (h : t.Valid) : t.pop.Valid := by
  refine holds_pop h fun s rest houter =>
    ⟨fun s' hs' entry hentry => h.names s' ?_ entry hentry, h.injected⟩
  rw [scopes, houter]
  exact List.mem_cons_of_mem _ hs'

theorem Valid.apply {t : Tracker} (h : t.Valid) (op : ScopeOp) : (t.apply op).Valid :=
  holds_apply Valid.changes Valid.push Valid.pop h op

theorem Valid.run {t : Tracker} (h : t.Valid) (ops : List ScopeOp) : (t.run ops).Valid :=
  holds_run Valid.apply h ops

theorem Valid.provide {t : Tracker} (h : t.Valid) (name : Text) : (t.provide name).Valid := by
  have hkept : StoreKept t (t.provide name) := storeKept_push rfl
  refine ⟨fun s hs entry hentry => ?_, fun entry hentry => ?_⟩
  · have hsize : (t.provide name).store.size = t.store.size + 1 := Array.size_push ..
    rw [hsize]
    exact Nat.lt_succ_of_lt (h.names s hs entry hentry)
  · rcases List.mem_cons.mp hentry with rfl | hentry
    · exact ⟨.provided name, by simp [Tracker.provide], rfl⟩
    · exact hkept.used (h.injected entry hentry)

theorem Valid.addInput {t : Tracker} (h : t.Valid) (name : Text) : (t.addInput name).Valid :=
  holds_addInput h (fun b _ => h.bindName b) name

theorem valid_new (inputs injected : List Text) (report : Bool) :
    (Tracker.new inputs injected report).Valid :=
  holds_new (P := fun _ _ t => t.Valid) ⟨by simp [scopes], by simp⟩ Valid.provide Valid.addInput
    inputs injected

theorem Reachable.valid {t : Tracker} (h : t.Reachable) : t.Valid := by
  obtain ⟨inputs, injected, report, ops, rfl⟩ := h
  exact (valid_new inputs injected report).run ops

/-! ## Look-up -/

/-- A name refers to a position in the store. -/
theorem Valid.lt_of_resolve? {t : Tracker} (h : t.Valid) {name : Text} {i : Nat}
    (hi : t.resolve? name = some i) : i < t.store.size := by
  unfold resolve? at hi
  split at hi
  · rename_i j hj
    cases hi
    obtain ⟨s, hs, hmem⟩ := mem_of_findIn hj
    exact h.names s hs _ hmem
  · obtain ⟨b, hb, -⟩ := h.injected _ (mem_of_lookup hi)
    exact (Array.getElem?_eq_some_iff.mp hb).1

theorem Valid.isSome_resolve? {t : Tracker} (h : t.Valid) (name : Text) :
    (t.lookup? name).isSome = (t.resolve? name).isSome := by
  rw [lookup?]
  cases hi : t.resolve? name with
  | none => rfl
  | some i => simp [h.lt_of_resolve? hi]

/-! ## Inside an isolated scope -/

/-- The number of scopes that are open after some operations above a scope that was innermost with
`n` scopes above it; none when the operations close that scope. -/
def levels : (n : Nat) → List ScopeOp → Option Nat
  | n, [] => some n
  | n, .push _ _ :: ops => levels (n + 1) ops
  | 0, .pop :: _ => none
  | n + 1, .pop :: ops => levels n ops
  | n, _ :: ops => levels n ops

/-- An isolated scope has been opened over `base`, with `n` further scopes above it, and the
bindings of `base` are as they were. -/
structure Inside (base : Tracker) (n : Nat) (t : Tracker) : Prop where
  scopes : ∃ (upper : List Scope) (s : Scope), t.scopes = upper ++ s :: base.scopes ∧
    upper.length = n ∧ s.isolated = true ∧
    ∀ s' ∈ upper ++ [s], ∀ entry ∈ s'.names, base.store.size ≤ entry.2
  size : base.store.size ≤ t.store.size
  store : ∀ i < base.store.size, t.store[i]? = base.store[i]?
  added : ∀ i b, base.store.size ≤ i → t.store[i]? = some b → b.kind ≠ .input
  injected : t.injected = base.injected

theorem inside_push {t : Tracker} (owner : Option Node) : Inside t 0 (t.push true owner) where
  scopes := ⟨[], ⟨[], true, owner⟩, rfl, rfl, rfl, by simp⟩
  size := Nat.le_refl _
  store _ _ := rfl
  added i b hi hb := by
    have := (Array.getElem?_eq_some_iff.mp hb).1
    exact absurd this (Nat.not_lt.mpr hi)
  injected := rfl

/-- Closing the innermost scope goes on with the scopes below it. -/
theorem pop_of_scopes_eq {t : Tracker} {s : Scope} {rest : List Scope}
    (h : t.scopes = s :: rest) (hrest : rest ≠ []) :
    t.pop.scopes = rest ∧ t.pop.store = t.store ∧ t.pop.injected = t.injected := by
  obtain ⟨-, houter⟩ := List.cons.inj h
  unfold Tracker.pop
  split
  · rename_i hnil
    exact absurd (houter.symm.trans hnil) hrest
  · rename_i s rest' hcons
    exact ⟨hcons.symm.trans houter, rfl, rfl⟩

namespace Inside

variable {base t : Tracker} {n : Nat}

/-- Inside an isolated scope a name refers to a new binding or to one that is visible everywhere. -/
theorem resolve? (h : Inside base n t) {name : Text} {i : Nat} (hi : t.resolve? name = some i) :
    base.store.size ≤ i ∨ base.injected.lookup name = some i := by
  obtain ⟨upper, s, hscopes, -, hisolated, hnames⟩ := h.scopes
  unfold Tracker.resolve? at hi
  rw [hscopes, findIn_isolated name upper base.scopes hisolated] at hi
  split at hi
  · rename_i j hj
    cases hi
    obtain ⟨s', hs', hmem⟩ := mem_of_findIn hj
    exact .inl (hnames s' hs' _ hmem)
  · rw [h.injected] at hi
    exact .inr hi

/-- Marking a binding as used that a name refers to changes no binding that was there before. -/
theorem mark (h : Inside base n t) (hbase : base.Valid) {name : Text} {i : Nat}
    (hi : t.resolve? name = some i) :
    Inside base n { t with store := t.store.modify i fun b => { b with used := true } } where
  scopes := h.scopes
  size := by simpa using h.size
  store j hj := by
    rw [Array.getElem?_modify, ← h.store j hj]
    split
    · rename_i hij
      subst hij
      -- an old binding that a name refers to is visible everywhere, so it is used already
      rcases h.resolve? hi with hnew | hinjected
      · omega
      · obtain ⟨b, hb, hused⟩ := hbase.injected _ (mem_of_lookup hinjected)
        rw [h.store i hj, hb]
        cases b
        cases hused
        rfl
    · rfl
  added j b hj hb := by
    rw [Array.getElem?_modify] at hb
    split at hb
    · obtain ⟨c, hc, rfl⟩ := Option.map_eq_some_iff.mp hb
      exact h.added j c hj hc
    · exact h.added j b hj hb
  injected := h.injected

/-- A name is bound inside the isolated scope. -/
theorem bind (h : Inside base n t) (b : Binding) (seq : Nat) (hb : b.kind ≠ .input) :
    Inside base n { t.bindName b with seq } where
  scopes := by
    obtain ⟨upper, s, hscopes, hlength, hisolated, hnames⟩ := h.scopes
    cases upper with
    | nil =>
      obtain ⟨rfl, houter⟩ := List.cons.inj hscopes
      refine ⟨[], { t.current with names := (b.name, t.store.size) :: t.current.names },
        congrArg _ houter, hlength, hisolated, ?_⟩
      intro s' hs' entry hentry
      obtain rfl : s' = _ := by simpa using hs'
      rcases List.mem_cons.mp hentry with rfl | hentry
      · exact h.size
      · exact hnames t.current (by simp) entry hentry
    | cons first upper =>
      obtain ⟨rfl, houter⟩ := List.cons.inj hscopes
      refine ⟨{ t.current with names := (b.name, t.store.size) :: t.current.names } :: upper, s,
        congrArg _ houter, hlength, hisolated, ?_⟩
      intro s' hs' entry hentry
      rcases List.mem_cons.mp hs' with rfl | hs'
      · rcases List.mem_cons.mp hentry with rfl | hentry
        · exact h.size
        · exact hnames t.current (by simp) entry hentry
      · exact hnames s' (List.mem_cons_of_mem _ hs') entry hentry
  size := by
    have := h.size
    simp only [bindName, Array.size_push]
    omega
  store j hj := by
    have := h.size
    simp only [bindName]
    rw [Array.getElem?_push, if_neg (by omega), h.store j hj]
  added j c hj hc := by
    simp only [bindName] at hc
    rw [Array.getElem?_push] at hc
    split at hc
    · cases hc
      exact hb
    · exact h.added j c hj hc
  injected := h.injected

theorem changes {t' : Tracker} (h : Inside base n t) (hbase : base.Valid) (ht : Changes t t') :
    Inside base n t' := by
  cases ht with
  | same => exact h
  | mark hi => exact h.mark hbase hi
  | bind b seq hb => exact h.bind b seq hb

theorem push (h : Inside base n t) (isolated : Bool) (owner : Option Node) :
    Inside base (n + 1) (t.push isolated owner) where
  scopes := by
    obtain ⟨upper, s, hscopes, hlength, hisolated, hnames⟩ := h.scopes
    refine ⟨⟨[], isolated, owner⟩ :: upper, s, congrArg _ hscopes, by simp [hlength], hisolated, ?_⟩
    intro s' hs' entry hentry
    rcases List.mem_cons.mp hs' with rfl | hs'
    · cases hentry
    · exact hnames s' hs' entry hentry
  size := h.size
  store := h.store
  added := h.added
  injected := h.injected

theorem pop (h : Inside base (n + 1) t) : Inside base n t.pop := by
  obtain ⟨upper, s, hscopes, hlength, hisolated, hnames⟩ := h.scopes
  obtain ⟨first, upper, rfl⟩ := List.exists_cons_of_length_eq_add_one hlength
  obtain ⟨hpopped, hstore, hinjected⟩ := pop_of_scopes_eq hscopes (by simp)
  refine ⟨⟨upper, s, hpopped, by simpa using hlength, hisolated, fun s' hs' =>
    hnames s' (List.mem_cons_of_mem _ hs')⟩, ?_, ?_, ?_, hinjected.trans h.injected⟩
  · rw [hstore]
    exact h.size
  · rw [hstore]
    exact h.store
  · rw [hstore]
    exact h.added

/-- Operations that do not close the isolated scope stay inside it. -/
theorem run (h : Inside base n t) (hbase : base.Valid) {ops : List ScopeOp} {m : Nat}
    (hops : levels n ops = some m) : Inside base m (t.run ops) := by
  induction ops generalizing n t with
  | nil =>
    obtain rfl : n = m := by simpa [levels] using hops
    exact h
  | cons op ops ih =>
    rw [run_cons]
    cases op with
    | push isolated owner => exact ih (h.push isolated owner) hops
    | pop =>
      cases n with
      | zero => cases hops
      | succ n => exact ih h.pop hops
    | _ => exact ih (h.changes hbase (changes_apply rfl t)) hops

end Inside

theorem levels_append {n m : Nat} {before behind : List ScopeOp}
    (h : levels n (before ++ behind) = some m) : ∃ k, levels n before = some k := by
  induction before generalizing n with
  | nil => exact ⟨n, rfl⟩
  | cons op before ih =>
    cases op with
    | pop =>
      cases n with
      | zero => cases h
      | succ n => exact ih h
    | _ => exact ih h

/-- The inputs are all among the bindings that were there before. -/
theorem Inside.inputs {base t : Tracker} {n : Nat} (h : Inside base n t) :
    t.inputs = base.inputs := by
  have hbefore : t.store.toList.take base.store.size = base.store.toList := by
    refine List.ext_getElem? fun i => ?_
    rw [List.getElem?_take, Array.getElem?_toList, Array.getElem?_toList]
    split
    · rename_i hi
      exact h.store i hi
    · rename_i hi
      exact (Array.getElem?_eq_none (Nat.not_lt.mp hi)).symm
  have hadded : (t.store.toList.drop base.store.size).filter (·.kind == .input) = [] := by
    refine List.filter_eq_nil_iff.mpr fun b hb => ?_
    obtain ⟨i, hi⟩ := List.mem_iff_getElem?.mp hb
    rw [List.getElem?_drop, Array.getElem?_toList] at hi
    simpa using h.added _ b (Nat.le_add_right ..) hi
  unfold Tracker.inputs
  rw [← List.take_append_drop base.store.size t.store.toList, List.filter_append, hbefore, hadded,
    List.append_nil]

/-- An isolated scope is opaque.  When it is opened, used in any way and closed again, the bindings
that were there before, the scopes around it and the inputs are as they were; and as long as it is
open, a name refers to one of those bindings only if it is visible everywhere. -/
theorem isolated_scope_opaque {t : Tracker} (ht : t.Reachable) (owner : Option Node)
    {ops : List ScopeOp} (hops : levels 0 ops = some 0) :
    let inner := t.push true owner
    let closed := (inner.run ops).pop
    (∀ i < t.store.size, closed.store[i]? = t.store[i]?) ∧
      closed.scopes = t.scopes ∧ closed.injected = t.injected ∧ closed.inputs = t.inputs ∧
      ∀ before behind, ops = before ++ behind → ∀ name i,
        (inner.run before).resolve? name = some i → i < t.store.size →
          t.injected.lookup name = some i := by
  intro inner closed
  have hend : Inside t 0 (inner.run ops) := (inside_push owner).run ht.valid hops
  obtain ⟨upper, s, hscopes, hlength, -, -⟩ := hend.scopes
  obtain rfl := List.length_eq_zero_iff.mp hlength
  obtain ⟨hpopped, hstore, hinjected⟩ := pop_of_scopes_eq hscopes (by simp [scopes])
  refine ⟨fun i hi => ?_, hpopped, hinjected.trans hend.injected, ?_, ?_⟩
  · rw [hstore]
    exact hend.store i hi
  · rw [← hend.inputs, Tracker.inputs, hstore, Tracker.inputs]
  · rintro before behind rfl name i hi hold
    obtain ⟨k, hk⟩ := levels_append hops
    rcases ((inside_push owner).run ht.valid hk).resolve? hi with hnew | hinjected
    · omega
    · exact hinjected

/-- A name of the surroundings is assigned to inside the scope and becomes a name of its own there,
and a name that is visible everywhere is used. -/
theorem isolated_scope_opaque_assign :
    let t := (Tracker.new [[97]] [[98]] true).run [.declare [99] 1]
    let ops : List ScopeOp := [.assign [99] 2, .push false none, .use [98], .use [97], .pop]
    levels 0 ops = some 0 ∧ ((t.push true none).run ops).pop.scopes = t.scopes ∧
      ((t.push true none).run [.assign [99] 2]).resolve? [98] = some 0 ∧
      t.injected.lookup [98] = some 0 := by
  intro t ops
  have hops : levels 0 ops = some 0 := rfl
  obtain ⟨-, hscopes, -, -, hresolve⟩ :=
    isolated_scope_opaque ⟨[[97]], [[98]], true, [.declare [99] 1], rfl⟩ none hops
  have hfound : ((t.push true none).run [.assign [99] 2]).resolve? [98] = some 0 := rfl
  exact ⟨hops, hscopes, hfound, hresolve [.assign [99] 2] _ rfl _ _ hfound (by decide)⟩

end TwigLint.Tracker
