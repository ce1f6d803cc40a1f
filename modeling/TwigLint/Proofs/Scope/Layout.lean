import TwigLint.Lint.Scope.Suggest
import TwigLint.Proofs.Scope.Trace
import TwigLint.Proofs.Scope.Unused

/-! # What can be seen of a tracker

A walk and the rules see the names in the open scopes and the kinds of their bindings, and the
report about unused names sees which names have been declared and used.  Where bindings are kept is
seen by nobody.  Trackers that look the same go on to look the same.
-/

namespace TwigLint.Tracker

/-! ## Layouts -/

/-- A scope with the kinds of its names. -/
structure ScopeLayout where
  names : List (Text × Option BindingKind)
  isolated : Bool
  owner : Option Node

/-- The open scopes and the names that are visible everywhere. -/
structure Layout where
  current : ScopeLayout
  outer : List ScopeLayout
  injected : List (Text × Option BindingKind)

namespace Layout

/-- The kind that a name has in the nearest of the given scopes, up to an isolated one. -/
def findIn (name : Text) : List ScopeLayout → Option (Option BindingKind)
  | [] => none
  | s :: rest =>
    match s.names.lookup name with
    | some kind => some kind
    | none => if s.isolated then none else findIn name rest

def kind? (l : Layout) (name : Text) : Option BindingKind :=
  ((findIn name (l.current :: l.outer)).or (l.injected.lookup name)).join

/-- The names visible in the given scopes, up to an isolated one. -/
def namesIn : List ScopeLayout → List Text
  | [] => []
  | s :: rest => s.names.map Prod.fst ++ if s.isolated then [] else namesIn rest

def bind (l : Layout) (name : Text) (kind : BindingKind) : Layout :=
  { l with current := { l.current with names := (name, some kind) :: l.current.names } }

def pop (l : Layout) : Layout :=
  match l.outer with
  | [] => l
  | s :: rest => { l with current := s, outer := rest }

/-- The layout after an operation. -/
def apply (l : Layout) : ScopeOp → Layout
  | .push isolated owner => ⟨⟨[], isolated, owner⟩, l.current :: l.outer, l.injected⟩
  | .pop => l.pop
  | .declare name _ => l.bind name .target
  | .declareParam name _ => l.bind name .param
  | .declareImport name _ => l.bind name .imported
  | .inject name => l.bind name .injected
  | .assign name _ =>
    if l.kind? name = none ∨ l.kind? name = some .injected then l.bind name .target else l
  | .use _ => l

end Layout

/-- The kind of the binding at a position. -/
def kindAt (t : Tracker) (i : Nat) : Option BindingKind := t.store[i]?.map (·.kind)

/-- Names with the kinds of their bindings. -/
def withKinds (t : Tracker) (names : List (Text × Nat)) : List (Text × Option BindingKind) :=
  names.map fun entry => (entry.1, t.kindAt entry.2)

def scopeLayout (t : Tracker) (s : Scope) : ScopeLayout :=
  ⟨t.withKinds s.names, s.isolated, s.owner⟩

def layout (t : Tracker) : Layout :=
  ⟨t.scopeLayout t.current, t.outer.map t.scopeLayout, t.withKinds t.injected⟩

/-! ## Look-up in a layout -/

theorem lookup_withKinds (t : Tracker) (names : List (Text × Nat)) (name : Text) :
    (t.withKinds names).lookup name = (names.lookup name).map t.kindAt := by
  induction names with
  | nil => rfl
  | cons entry names ih =>
    rw [withKinds, List.map_cons, List.lookup_cons, List.lookup_cons, ← withKinds, ih]
    cases name == entry.1 <;> rfl

theorem findIn_layout (t : Tracker) (name : Text) (scopes : List Scope) :
    Layout.findIn name (scopes.map t.scopeLayout) = (findIn name scopes).map t.kindAt := by
  induction scopes with
  | nil => rfl
  | cons s scopes ih =>
    simp only [List.map_cons, Layout.findIn, findIn, scopeLayout, lookup_withKinds]
    cases s.names.lookup name with
    | some i => rfl
    | none => cases s.isolated <;> simp [ih]

theorem kind?_layout (t : Tracker) (name : Text) : t.kind? name = t.layout.kind? name := by
  have hfind := t.findIn_layout name t.scopes
  rw [Layout.kind?, layout, lookup_withKinds]
  rw [scopes, List.map_cons] at hfind
  rw [hfind, kind?, lookup?, resolve?, scopes]
  cases findIn name (t.current :: t.outer) with
  | some i => simp [kindAt]
  | none =>
    cases t.injected.lookup name with
    | some i => simp [kindAt]
    | none => rfl

theorem namesIn_layout (t : Tracker) (scopes : List Scope) :
    Layout.namesIn (scopes.map t.scopeLayout) = namesIn scopes := by
  induction scopes with
  | nil => rfl
  | cons s scopes ih =>
    simp [Layout.namesIn, namesIn, scopeLayout, withKinds, ih, Function.comp_def]

/-! ## Operations on layouts -/

theorem withKinds_kept {t t' : Tracker} (h : StoreKept t t') {names : List (Text × Nat)}
    (hnames : ∀ entry ∈ names, ∃ b, t.store[entry.2]? = some b ∧ b.name = entry.1) :
    t'.withKinds names = t.withKinds names := by
  refine List.map_congr_left fun entry hentry => ?_
  obtain ⟨b, hb, -⟩ := hnames entry hentry
  obtain ⟨b', hb', hlater⟩ := h _ b hb
  rw [kindAt, kindAt, hb, hb', Option.map_some, Option.map_some, hlater.2]

theorem scopeLayout_kept {t t' : Tracker} (h : StoreKept t t') (ht : t.Named) {s : Scope}
    (hs : s ∈ t.scopes) : t'.scopeLayout s = t.scopeLayout s := by
  rw [scopeLayout, withKinds_kept h (ht.scopes s hs), scopeLayout]

/-- Nothing changes to the eye while scopes stay open and bindings only become used. -/
theorem layout_kept {t t' : Tracker} (h : StoreKept t t') (ht : t.Named)
    (hcurrent : t'.current = t.current) (houter : t'.outer = t.outer)
    (hinjected : t'.injected = t.injected) : t'.layout = t.layout := by
  have hscopes : t.outer.map t'.scopeLayout = t.outer.map t.scopeLayout :=
    List.map_congr_left fun s hs => scopeLayout_kept h ht (List.mem_cons_of_mem _ hs)
  rw [layout, hcurrent, houter, hinjected, hscopes, withKinds_kept h ht.injected,
    scopeLayout_kept h ht (List.mem_cons_self ..), layout]

theorem layout_bindName {t : Tracker} (ht : t.Named) (b : Binding) :
    (t.bindName b).layout = t.layout.bind b.name b.kind := by
  have hkept : StoreKept t (t.bindName b) := storeKept_push rfl
  have hscopes : t.outer.map (t.bindName b).scopeLayout = t.outer.map t.scopeLayout :=
    List.map_congr_left fun s hs => scopeLayout_kept hkept ht (List.mem_cons_of_mem _ hs)
  have hnew : (t.bindName b).kindAt t.store.size = some b.kind := by
    rw [kindAt, bindName, Array.getElem?_push_size, Option.map_some]
  have hcurrent : (t.bindName b).withKinds t.current.names = t.withKinds t.current.names :=
    withKinds_kept hkept (ht.scopes _ (List.mem_cons_self ..))
  have hnames : (t.bindName b).withKinds (t.bindName b).current.names =
      (b.name, some b.kind) :: t.withKinds t.current.names := by
    rw [← hcurrent, ← hnew]
    rfl
  rw [layout, scopeLayout, hnames, Layout.bind]
  change Layout.mk _ (t.outer.map _) ((t.bindName b).withKinds t.injected) = _
  rw [hscopes, withKinds_kept hkept ht.injected]
  rfl

/-- What an operation does can be seen in the layout. -/
theorem layout_apply {t : Tracker} (ht : t.Named) (op : ScopeOp) :
    (t.apply op).layout = t.layout.apply op := by
  have hdeclare (name : Text) (line : Int) (kind : BindingKind) :
      (t.declare name line kind).layout = t.layout.bind name kind :=
    layout_bindName ht ⟨name, line, t.seq + 1, false, kind⟩
  cases op with
  | push isolated owner => rfl
  | pop =>
    simp only [apply, Tracker.pop, Layout.apply, Layout.pop, layout]
    cases houter : t.outer with
    | nil => simp [houter]
    | cons s rest => rfl
  | declare name line => exact hdeclare name line .target
  | declareParam name line => exact hdeclare name line .param
  | declareImport name line => exact hdeclare name line .imported
  | inject name => exact layout_bindName ht (.provided name)
  | assign name line =>
    simp only [apply, assign_eq, Layout.apply, kind?_layout]
    split
    · exact hdeclare name line .target
    · rfl
  | use name =>
    have hkept := storeKept_apply t (.use name)
    refine layout_kept hkept ht (current_use t name) ?_ ?_
    · simp only [apply, use]
      split <;> rfl
    · simp only [apply, use]
      split <;> rfl

theorem layout_run {t : Tracker} (ht : t.Named) (ops : List ScopeOp) :
    (t.run ops).layout = ops.foldl Layout.apply t.layout := by
  induction ops generalizing t with
  | nil => rfl
  | cons op ops ih => rw [run_cons, ih (ht.apply op), layout_apply ht, List.foldl_cons]

/-- Contained operations leave the layout as it is. -/
theorem Contained.layout {ops : List ScopeOp} (h : Contained ops) {t : Tracker} (ht : t.Named) :
    (t.run ops).layout = t.layout := by
  have hcontinues := h.matched.continues t
  exact layout_kept hcontinues.store ht (h.current t) hcontinues.outer hcontinues.injected

/-! ## Trackers that look the same -/

theorem Reachable.run {t : Tracker} (h : t.Reachable) (ops : List ScopeOp) :
    (t.run ops).Reachable := by
  obtain ⟨inputs, injected, report, before, rfl⟩ := h
  exact ⟨inputs, injected, report, before ++ ops, (run_append ..).symm⟩

theorem Reachable.named {t : Tracker} (h : t.Reachable) : t.Named := by
  obtain ⟨inputs, injected, report, before, rfl⟩ := h
  exact (named_new inputs injected report).run before

theorem Reachable.numbered {t : Tracker} (h : t.Reachable) : t.Numbered := by
  obtain ⟨inputs, injected, report, before, rfl⟩ := h
  exact (seeded_new inputs injected report).numbered.run before

theorem Reachable.nodup_inputs {t : Tracker} (h : t.Reachable) : (t.namesOf .input).Nodup := by
  obtain ⟨inputs, injected, report, before, rfl⟩ := h
  rw [namesOf_input_new]
  exact nodup_eraseDups inputs

/-- The same names are visible in both trackers, with bindings of the same kinds. -/
structure SameLayout (t t' : Tracker) : Prop where
  reachable : t.Reachable
  reachable' : t'.Reachable
  layout : t.layout = t'.layout

namespace SameLayout

variable {t t' : Tracker} (h : SameLayout t t')
include h

theorem symm : SameLayout t' t := ⟨h.reachable', h.reachable, h.layout.symm⟩

theorem trans {u : Tracker} (hu : SameLayout t' u) : SameLayout t u :=
  ⟨h.reachable, hu.reachable', h.layout.trans hu.layout⟩

theorem run (ops : List ScopeOp) : SameLayout (t.run ops) (t'.run ops) := by
  refine ⟨h.reachable.run ops, h.reachable'.run ops, ?_⟩
  rw [layout_run h.reachable.named, layout_run h.reachable'.named, h.layout]

theorem kind? (name : Text) : t.kind? name = t'.kind? name := by
  rw [kind?_layout, kind?_layout, h.layout]

theorem knows (name : Text) : t.knows name = t'.knows name := by
  have hkind (u : Tracker) : u.knows name = (u.kind? name).isSome := by
    rw [Tracker.kind?, Option.isSome_map, Tracker.knows]
  rw [hkind, hkind, h.kind?]

theorem isImported (name : Text) : t.isImported name = t'.isImported name := by
  have hkind (u : Tracker) : u.isImported name = (u.kind? name).any (· == .imported) := by
    rw [Tracker.kind?, Option.any_map, Tracker.isImported]
  rw [hkind, hkind, h.kind?]

theorem didYouMean (name : Text) : t.didYouMean name = t'.didYouMean name := by
  have hnames (u : Tracker) : namesIn u.scopes ++ u.injected.map Prod.fst =
      Layout.namesIn (u.layout.current :: u.layout.outer) ++ u.layout.injected.map Prod.fst := by
    have hscopes := u.namesIn_layout u.scopes
    rw [← hscopes, Tracker.layout, withKinds, List.map_map]
    rfl
  unfold Tracker.didYouMean suggest visible
  rw [hnames, hnames, h.layout]

theorem owner : t.current.owner = t'.current.owner := congrArg (·.current.owner) h.layout

theorem onEnter (node : Node) (ancestors : List Node) :
    t.onEnter node ancestors = t'.onEnter node ancestors := by
  unfold Tracker.onEnter
  rw [h.isImported]

theorem onSlot (node : Node) (slot : Slot) : t.onSlot node slot = t'.onSlot node slot := by
  unfold Tracker.onSlot opening closing
  rw [h.owner]

theorem onLeave (node : Node) : t.onLeave node = t'.onLeave node := by
  unfold Tracker.onLeave closing
  rw [h.owner]

theorem slotOperations (node : Node) {ancestors : List Node} {children : List (Slot × Node)}
    (hchildren : ∀ entry ∈ children, ∀ {t t' : Tracker}, SameLayout t t' →
      t.operations ancestors entry.2 = t'.operations ancestors entry.2) :
    t.slotOperations ancestors node children = t'.slotOperations ancestors node children := by
  induction children generalizing t t' with
  | nil => rfl
  | cons entry rest ih =>
    have hturned := h.run (t.onSlot node entry.1)
    have hchild := hchildren entry (List.mem_cons_self ..) hturned
    have hrest := ih (hturned.run ((t.run (t.onSlot node entry.1)).operations ancestors entry.2))
      fun e he => hchildren e (List.mem_cons_of_mem _ he)
    rw [Tracker.slotOperations, Tracker.slotOperations, ← h.onSlot, ← hchild, ← hrest]

/-- Walks from trackers that look the same perform the same operations. -/
theorem operations (ancestors : List Node) (node : Node) :
    t.operations ancestors node = t'.operations ancestors node := by
  induction node using Node.induction generalizing t t' ancestors with
  | node node ih =>
    have hentered := h.run (t.onEnter node ancestors)
    have hslots := hentered.slotOperations node fun entry hentry _ _ h =>
      ih entry hentry h (node :: ancestors)
    rw [operations_eq, operations_eq, ← h.onEnter, ← hslots, ← (hentered.run _).onLeave]

end SameLayout

/-! ## Trackers that report the same -/

/-- The report about unused names, by what has been declared and used. -/
theorem Reachable.unused {t : Tracker} (h : t.Reachable) :
    t.unused =
      let locals := ((t.namesOf .target).filter fun n => !t.usedAs .target n).eraseDups
      let idle := (t.namesOf .input).filter fun n => !t.usedAs .input n
      if t.reportUnusedInputs then locals ++ idle.filter fun n => !locals.contains n
      else locals := by
  rw [Tracker.unused, h.numbered.unusedLocals, unusedInputs_eq h.nodup_inputs]

/-- The trackers look the same, and the same names have been declared and used. -/
structure Alike (t t' : Tracker) : Prop extends SameLayout t t' where
  targets : t.namesOf .target = t'.namesOf .target
  inputs : t.namesOf .input = t'.namesOf .input
  used : ∀ kind ≠ .injected, t.usedAs kind = t'.usedAs kind
  reports : t.reportUnusedInputs = t'.reportUnusedInputs

namespace SameLayout

theorem createdAlong {t t' : Tracker} (h : SameLayout t t') (ops : List ScopeOp) :
    t.createdAlong ops = t'.createdAlong ops := by
  induction ops generalizing t t' with
  | nil => rfl
  | cons op ops ih =>
    have hop : t.createdBy op = t'.createdBy op := by
      unfold createdBy
      simp only [h.kind?]
    have hrest : (t.apply op).createdAlong ops = (t'.apply op).createdAlong ops := ih (h.run [op])
    rw [Tracker.createdAlong, Tracker.createdAlong, hop, hrest]

theorem usedAlong {t t' : Tracker} (h : SameLayout t t') (ops : List ScopeOp) :
    t.usedAlong ops = t'.usedAlong ops := by
  induction ops generalizing t t' with
  | nil => rfl
  | cons op ops ih =>
    have hop : t.usedBy op = t'.usedBy op := by
      unfold usedBy
      simp only [h.kind?]
    have hrest : (t.apply op).usedAlong ops = (t'.apply op).usedAlong ops := ih (h.run [op])
    rw [Tracker.usedAlong, Tracker.usedAlong, hop, hrest]

end SameLayout

namespace Alike

theorem refl {t : Tracker} (h : t.Reachable) : Alike t t :=
  ⟨⟨h, h, rfl⟩, rfl, rfl, fun _ _ => rfl, rfl⟩

theorem trans {t u v : Tracker} (htu : Alike t u) (huv : Alike u v) : Alike t v where
  reachable := htu.reachable
  reachable' := huv.reachable'
  layout := htu.layout.trans huv.layout
  targets := htu.targets.trans huv.targets
  inputs := htu.inputs.trans huv.inputs
  used kind hkind := (htu.used kind hkind).trans (huv.used kind hkind)
  reports := htu.reports.trans huv.reports

theorem symm {t u : Tracker} (h : Alike t u) : Alike u t where
  reachable := h.reachable'
  reachable' := h.reachable
  layout := h.layout.symm
  targets := h.targets.symm
  inputs := h.inputs.symm
  used kind hkind := (h.used kind hkind).symm
  reports := h.reports.symm

/-- The same operations keep trackers alike. -/
theorem run {t t' : Tracker} (h : Alike t t') (ops : List ScopeOp) :
    Alike (t.run ops) (t'.run ops) where
  toSameLayout := h.toSameLayout.run ops
  targets := by rw [namesOf_target_run, namesOf_target_run, h.targets, h.createdAlong]
  inputs := by rw [namesOf_input_run, namesOf_input_run, h.inputs]
  used kind hkind := by
    funext name
    rw [usedAs_run h.reachable.named ops hkind, usedAs_run h.reachable'.named ops hkind,
      h.used kind hkind, h.usedAlong]
  reports := by rw [reportUnusedInputs_run, reportUnusedInputs_run, h.reports]

theorem unused {t t' : Tracker} (h : Alike t t') : t.unused = t'.unused := by
  rw [h.reachable.unused, h.reachable'.unused, h.targets, h.inputs, h.used .target (by decide),
    h.used .input (by decide), h.reports]

end Alike

/-- Contained operations that create no local names change nothing but uses, and not even these when
they are performed again. -/
theorem Contained.repeated {ops : List ScopeOp} (h : Contained ops) {t : Tracker}
    (ht : t.Reachable) (hnone : t.createdAlong ops = []) :
    Alike (t.run ops) ((t.run ops).run ops) := by
  have hrun := ht.run ops
  have hlayout : SameLayout t (t.run ops) := ⟨ht, hrun, (h.layout ht.named).symm⟩
  refine ⟨⟨hrun, hrun.run ops, (h.layout hrun.named).symm⟩, ?_, ?_, ?_, ?_⟩
  · rw [namesOf_target_run (t.run ops), ← hlayout.createdAlong, hnone, List.append_nil]
  · rw [namesOf_input_run (t.run ops)]
  · intro kind hkind
    funext name
    rw [usedAs_run hrun.named ops hkind, ← hlayout.usedAlong, usedAs_run ht.named ops hkind,
      Bool.or_assoc, Bool.or_self]
  · rw [reportUnusedInputs_run (t.run ops)]

end TwigLint.Tracker
