import TwigLint.Proofs.Scope.Isolation

/-! # What a tracker has recorded

The names that have been bound and used so far, read off the store of a tracker, and how every
operation adds to them.  Names refer to bindings of their own name, and the declarations are
numbered from one on.
-/

namespace TwigLint.Tracker

/-! ## Names and numbers of bindings -/

/-- Names are bound to bindings that carry the name. -/
structure Named (t : Tracker) : Prop where
  scopes : ∀ s ∈ t.scopes, ∀ entry ∈ s.names, ∃ b, t.store[entry.2]? = some b ∧ b.name = entry.1
  injected : ∀ entry ∈ t.injected, ∃ b, t.store[entry.2]? = some b ∧ b.name = entry.1

theorem Named.resolve? {t : Tracker} (h : t.Named) {name : Text} {i : Nat}
    (hi : t.resolve? name = some i) : ∃ b, t.store[i]? = some b ∧ b.name = name := by
  unfold Tracker.resolve? at hi
  split at hi
  · rename_i j hj
    cases hi
    obtain ⟨s, hs, hmem⟩ := mem_of_findIn hj
    exact h.scopes s hs _ hmem
  · exact h.injected _ (mem_of_lookup hi)

theorem Named.bindName {t : Tracker} (h : t.Named) (b : Binding) : (t.bindName b).Named := by
  have hkept : StoreKept t (t.bindName b) := storeKept_push rfl
  refine ⟨fun s hs entry hentry => ?_, fun entry hentry => hkept.name (h.injected entry hentry)⟩
  rcases List.mem_cons.mp hs with rfl | hs
  · rcases List.mem_cons.mp hentry with rfl | hentry
    · exact ⟨b, Array.getElem?_push_size, rfl⟩
    · exact hkept.name (h.scopes _ (List.mem_cons_self ..) entry hentry)
  · exact hkept.name (h.scopes s (List.mem_cons_of_mem _ hs) entry hentry)

theorem Named.changes {t t' : Tracker} (h : t.Named) (ht : Changes t t') : t'.Named := by
  cases ht with
  | same => exact h
  | mark hi =>
    have hkept := storeKept_mark t
    exact ⟨fun s hs entry hentry => (hkept _).name (h.scopes s hs entry hentry),
      fun entry hentry => (hkept _).name (h.injected entry hentry)⟩
  | bind b seq hb => exact ⟨(h.bindName b).scopes, (h.bindName b).injected⟩

theorem Named.push {t : Tracker} (h : t.Named) (isolated : Bool) (owner : Option Node) :
    (t.push isolated owner).Named := by
  refine ⟨fun s hs entry hentry => ?_, h.injected⟩
  rcases List.mem_cons.mp hs with rfl | hs
  · cases hentry
  · exact h.scopes s hs entry hentry

theorem Named.pop {t : Tracker} (h : t.Named) : t.pop.Named := by
  refine holds_pop h fun s rest houter =>
    ⟨fun s' hs' entry hentry => h.scopes s' ?_ entry hentry, h.injected⟩
  rw [Tracker.scopes, houter]
  exact List.mem_cons_of_mem _ hs'

theorem Named.apply {t : Tracker} (h : t.Named) (op : ScopeOp) : (t.apply op).Named :=
  holds_apply Named.changes Named.push Named.pop h op

theorem Named.run {t : Tracker} (h : t.Named) (ops : List ScopeOp) : (t.run ops).Named :=
  holds_run Named.apply h ops

theorem Named.provide {t : Tracker} (h : t.Named) (name : Text) : (t.provide name).Named := by
  have hkept : StoreKept t (t.provide name) := storeKept_push rfl
  refine ⟨fun s hs entry hentry => hkept.name (h.scopes s hs entry hentry), fun entry hentry => ?_⟩
  rcases List.mem_cons.mp hentry with rfl | hentry
  · exact ⟨.provided name, Array.getElem?_push_size, rfl⟩
  · exact hkept.name (h.injected entry hentry)

theorem named_new (inputs injected : List Text) (report : Bool) :
    (Tracker.new inputs injected report).Named :=
  holds_new (P := fun _ _ t => t.Named) ⟨by simp [Tracker.scopes], by simp⟩ Named.provide
    (fun h name => holds_addInput h (fun b _ => h.bindName b) name) inputs injected

/-! ## What the store says -/

/-- The kind of the binding that a name refers to. -/
def kind? (t : Tracker) (name : Text) : Option BindingKind := (t.lookup? name).map (·.kind)

/-- The names of the bindings of a kind, in the order in which they were made. -/
def namesOf (t : Tracker) (kind : BindingKind) : List Text :=
  (t.store.toList.filter (·.kind == kind)).map (·.name)

/-- Some binding of this kind and name counts as used. -/
def usedAs (t : Tracker) (kind : BindingKind) (name : Text) : Bool :=
  t.store.toList.any fun b => kind == b.kind && name == b.name && b.used

/-- What a function that does not look at uses finds in a list is there after a use as well. -/
theorem filterMap_mark {α : Type} {g : Binding → Option α}
    (hg : ∀ b : Binding, g { b with used := true } = g b) (bs : List Binding) (i : Nat) :
    (bs.modify i fun b => { b with used := true }).filterMap g = bs.filterMap g := by
  induction bs generalizing i with
  | nil => rw [List.modify_nil]
  | cons b bs ih =>
    cases i with
    | zero => rw [List.modify_zero_cons, List.filterMap_cons, List.filterMap_cons, hg]
    | succ i => rw [List.modify_succ_cons, List.filterMap_cons, List.filterMap_cons, ih]

/-- After a use, that binding counts as used, and all others as before. -/
theorem any_mark {p : Binding → Bool} (hp : ∀ b : Binding, p { b with used := true } = p b)
    (bs : List Binding) (i : Nat) :
    ((bs.modify i fun b => { b with used := true }).any fun b => p b && b.used) =
      ((bs.any fun b => p b && b.used) || bs[i]?.any p) := by
  induction bs generalizing i with
  | nil => rw [List.modify_nil, List.getElem?_nil, Option.any_none, Bool.or_false]
  | cons b bs ih =>
    cases i with
    | zero =>
      rw [List.modify_zero_cons, List.any_cons, List.any_cons, hp, Bool.and_true,
        List.getElem?_cons_zero, Option.any_some]
      cases p b <;> simp
    | succ i =>
      rw [List.modify_succ_cons, List.any_cons, List.any_cons, ih, List.getElem?_cons_succ,
        Bool.or_assoc]

theorem namesOf_eq (t : Tracker) (kind : BindingKind) :
    t.namesOf kind =
      t.store.toList.filterMap fun b => if b.kind = kind then some b.name else none := by
  rw [namesOf, ← List.filterMap_eq_filter, List.map_filterMap]
  congr 1
  funext b
  by_cases h : b.kind = kind <;> simp [h, Option.guard]

@[simp] theorem namesOf_bindName (t : Tracker) (b : Binding) (kind : BindingKind) :
    (t.bindName b).namesOf kind = t.namesOf kind ++ if b.kind = kind then [b.name] else [] := by
  by_cases h : b.kind = kind <;> simp [namesOf, bindName, h]

@[simp] theorem usedAs_bindName (t : Tracker) (b : Binding) (kind : BindingKind) (name : Text) :
    (t.bindName b).usedAs kind name =
      (t.usedAs kind name || (kind == b.kind && name == b.name && b.used)) := by
  simp [usedAs, bindName]

theorem namesOf_use (t : Tracker) (name : Text) (kind : BindingKind) :
    (t.use name).namesOf kind = t.namesOf kind := by
  unfold use
  split
  · rw [namesOf_eq, namesOf_eq, Array.toList_modify, filterMap_mark fun b => rfl]
  · rfl

theorem usedAs_use {t : Tracker} (h : t.Named) (name : Text) (kind : BindingKind) (other : Text) :
    (t.use name).usedAs kind other =
      (t.usedAs kind other || (some kind == t.kind? name && other == name)) := by
  unfold use kind? lookup?
  split
  · rename_i i hi
    obtain ⟨b, hb, rfl⟩ := h.resolve? hi
    rw [usedAs, Array.toList_modify, any_mark fun b => rfl, Array.getElem?_toList, hi,
      Option.bind_some, hb]
    simp [usedAs]
  · rename_i hnone
    simp [hnone]

end TwigLint.Tracker
