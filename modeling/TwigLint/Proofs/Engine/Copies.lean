import TwigLint.Proofs.Engine.Output

/-! # Copies of operands

What `??` stands for has its left operand three times: below `is defined`, below `is null`, and as
the value; and `?:` has its operand as the condition and as the value.  A walk comes to every copy,
finds the same in each, and what it finds and changes in a further copy makes no difference.
-/

namespace TwigLint

open Rules Tracker ScopedWalk
open TwigLint.Parser (Built Category)

/-! ## Paths -/

namespace Node

/-- The part of a tree at the end of a path of slots. -/
def at? (n : Node) : List Slot → Option Node
  | [] => some n
  | slot :: path => (n.child? slot).bind (·.at? path)

/-- The nodes around the end of a path, nearest first, when `outer` are those around its start. -/
def around (n : Node) (outer : List Node) : List Slot → List Node
  | [] => outer
  | slot :: path =>
    match n.child? slot with
    | some child => child.around (n :: outer) path
    | none => n :: outer

/-- The paths to the copies of the operand of `??` or `?:`, in the order of a walk. -/
def copies (n : Node) : List (List Slot) :=
  if n.coalesces then [[.expr1, .left, .node], [.expr1, .right, .node, .node], [.expr2]]
  else if n.kind = .conditional ∧ n.child? .expr1 = n.child? .expr2 then [[.expr1], [.expr2]]
  else []

end Node

/-! ## Nodes without scopes -/

namespace Tracker

theorem Foreign.child {t : Tracker} {n : Node} (h : Foreign t n) {entry : Slot × Node}
    (hentry : entry ∈ n.children) : Foreign t entry.2 :=
  fun m hm => h m (Node.mem_nodes_of_child hentry hm)

theorem SameLayout.foreign {t t' : Tracker} (h : SameLayout t t') {n : Node} (hn : Foreign t n) :
    Foreign t' n :=
  fun m hm => h.owner ▸ hn m hm

/-- The tracker after walking a tree. -/
def walked (t : Tracker) (around : List Node) (n : Node) : Tracker :=
  t.run (t.operations around n)

/-- The tracker after walking the children of a node from some slot on. -/
def slotWalked (t : Tracker) (around : List Node) (n : Node) (children : List (Slot × Node)) :
    Tracker :=
  t.run (t.slotOperations around n children)

@[simp] theorem slotWalked_nil (t : Tracker) (around : List Node) (n : Node) :
    t.slotWalked around n [] = t := rfl

theorem slotWalked_cons (t : Tracker) (around : List Node) (n : Node) (entry : Slot × Node)
    (rest : List (Slot × Node)) : t.slotWalked around n (entry :: rest) =
      ((t.run (t.onSlot n entry.1)).walked around entry.2).slotWalked around n rest := by
  rw [slotWalked, slotOperations, run_append, run_append]
  rfl

theorem walked_eq (t : Tracker) (around : List Node) (n : Node) :
    t.walked around n =
      let entered := t.run (t.onEnter n around)
      let left := entered.slotWalked (n :: around) n n.children
      left.run (left.onLeave n) := by
  rw [walked, operations_eq, run_append, run_append]
  rfl

end Tracker

/-- The node itself changes no scopes. -/
structure Node.Quiet (n : Node) : Prop where
  onEnter : ∀ (t : Tracker) around, t.onEnter n around = []
  onSlot : ∀ (t : Tracker) slot, t.onSlot n slot = []
  onLeave : ∀ t : Tracker, t.onLeave n = []

theorem quiet_of_kind {n : Node}
    (h : [.conditional, .binary, .unary, .test, .arguments].contains n.kind = true) : n.Quiet := by
  simp only [List.contains_iff_mem, List.mem_cons, List.not_mem_nil, or_false] at h
  rcases h with h | h | h | h | h <;>
    exact ⟨by simp [Tracker.onEnter, h], by simp [Tracker.onSlot, h], by simp [Tracker.onLeave, h]⟩

namespace Node.Quiet

variable {n : Node} (h : n.Quiet) (t : Tracker) (around : List Node)
include h

theorem walked : t.walked around n = t.slotWalked (n :: around) n n.children := by
  rw [walked_eq]
  simp only [h.onEnter, h.onLeave, run_nil]

theorem slotWalked_cons (entry : Slot × Node) (rest : List (Slot × Node)) :
    t.slotWalked around n (entry :: rest) =
      (t.walked around entry.2).slotWalked around n rest := by
  rw [Tracker.slotWalked_cons, h.onSlot, run_nil]

theorem output (e : Engine) (ctx : Context) :
    e.output (ctx.within t around) n =
      e.finds ctx t around n ++ e.slotOutput ctx t (n :: around) n n.children := by
  rw [Engine.output_node, h.onEnter, run_nil]

theorem slotOutput_cons (e : Engine) (ctx : Context) (entry : Slot × Node)
    (rest : List (Slot × Node)) :
    e.slotOutput ctx t around n (entry :: rest) = e.output (ctx.within t around) entry.2 ++
      e.slotOutput ctx (t.walked around entry.2) around n rest := by
  rw [Engine.slotOutput, h.onSlot, run_nil]
  rfl

theorem moments : ScopedWalk.moments ⟨some t, around⟩ n =
    (⟨some t, around⟩, n) :: slotMoments ⟨some t, n :: around⟩ n n.children := by
  rw [moments_eq]
  simp only [State.update, Option.map_some, h.onEnter, run_nil]
  rfl

theorem slotMoments_cons (entry : Slot × Node) (rest : List (Slot × Node)) :
    slotMoments ⟨some t, around⟩ n (entry :: rest) = ScopedWalk.moments ⟨some t, around⟩ entry.2 ++
      slotMoments ⟨some (t.walked around entry.2), around⟩ n rest := by
  rw [slotMoments, visit_state]
  simp only [State.update, Option.map_some, h.onSlot, run_nil]
  rfl

end Node.Quiet

/-! ## Walking a tree several times -/

/-- The states in which walks come to a tree that is walked at several places in turn. -/
def visits (n : Node) (t : Tracker) : List (List Node) → List State
  | [] => []
  | around :: rest => ⟨some t, around⟩ :: visits n (t.walked around n) rest

/-- The tracker after walking a tree at several places in turn. -/
def Tracker.walkedAt (t : Tracker) (n : Node) (arounds : List (List Node)) : Tracker :=
  arounds.foldl (fun t around => t.walked around n) t

theorem ancestors_visits (n : Node) (t : Tracker) (arounds : List (List Node)) :
    (visits n t arounds).map (·.ancestors) = arounds := by
  induction arounds generalizing t with
  | nil => rfl
  | cons around rest ih => rw [visits, List.map_cons, ih]

section

variable {Q : Token → Prop} {n : Node} (hn : Built Q .expression n)
include hn

theorem sameLayout_of_mem_visits {t : Tracker} (ht : t.Reachable) (hforeign : Foreign t n)
    (arounds : List (List Node)) :
    ∀ s ∈ visits n t arounds, ∃ u, s = ⟨some u, s.ancestors⟩ ∧ SameLayout t u ∧
      s.ancestors ∈ arounds := by
  induction arounds generalizing t with
  | nil => simp [visits]
  | cons around rest ih =>
    intro s hs
    rcases List.mem_cons.mp hs with rfl | hs
    · exact ⟨t, rfl, (Alike.refl ht).toSameLayout, List.mem_cons_self ..⟩
    · have hsame := hn.sameLayout_run ht hforeign around
      obtain ⟨u, hu, hlayout, hmem⟩ := ih hsame.reachable' (hsame.foreign hforeign) s hs
      refine ⟨u, hu, ⟨ht, hlayout.reachable', ?_⟩, List.mem_cons_of_mem _ hmem⟩
      exact hsame.layout.trans hlayout.layout

/-- Walking an expression at further places changes nothing that can be seen. -/
theorem alike_walkedAt {t : Tracker} (ht : t.Reachable) (hforeign : Foreign t n)
    (around : List Node) (more : List (List Node)) :
    Alike (t.walked around n) (t.walkedAt n (around :: more)) := by
  induction more generalizing t around with
  | nil => exact .refl (ht.run _)
  | cons next more ih =>
    have hsame := hn.sameLayout_run ht hforeign around
    have hnext : Alike (t.walked around n) ((t.walked around n).walked next n) :=
      hn.alike_run ht hforeign around next
    exact hnext.trans (ih hsame.reachable' (hsame.foreign hforeign) next)

/-- A further walk keeps all names and the report about unused ones. -/
theorem idle_visits {t : Tracker} (ht : t.Reachable) (hforeign : Foreign t n)
    (arounds : List (List Node)) :
    ∀ s ∈ (visits n t arounds).tail, ∃ u, s = ⟨some u, s.ancestors⟩ ∧
      KeepsNames u (u.walked s.ancestors n) ∧ (u.walked s.ancestors n).unused = u.unused := by
  induction arounds generalizing t with
  | nil => simp [visits]
  | cons around rest ih =>
    have hsame := hn.sameLayout_run ht hforeign around
    have hforeign' := hsame.foreign hforeign
    cases rest with
    | nil => simp [visits]
    | cons around' rest =>
      intro s hs
      rcases List.mem_cons.mp hs with rfl | hs
      · refine ⟨_, rfl, ?_, ?_⟩
        · exact hn.confined.keepsNames hforeign' hsame.reachable'.valid around'
        · exact (hn.alike_run ht hforeign around around').unused.symm
      · exact ih hsame.reachable' hforeign' s hs

end

/-! ## What `??` stands for -/

namespace Parser

/-- One of the tests below which a left operand stands. -/
def operandTest (name : Text) (l : Location) (left : Node) : Node :=
  test l name left (.list .arguments l [])

def notNull (l : Location) (left : Node) : Node := unary l "not" (operandTest "null" l left)

/-- The condition of what `??` stands for. -/
def isThere (l : Location) (left : Node) : Node :=
  binary l "and" (operandTest "defined" l left) (notNull l left)

variable (l : Location) (left right : Node)

theorem children_nullCoalesce : (nullCoalesce l left right).children =
    [(.expr1, isThere l left), (.expr2, left), (.expr3, right)] := rfl

theorem children_isThere : (isThere l left).children =
    [(.left, operandTest "defined" l left), (.right, notNull l left)] := rfl

theorem children_notNull : (notNull l left).children = [(.node, operandTest "null" l left)] := rfl

theorem children_operandTest (name : Text) : (operandTest name l left).children =
    [(.node, left), (.arguments, .list .arguments l [])] := rfl

theorem children_none : (Node.list .arguments l []).children = [] := rfl

theorem quiet_nullCoalesce : (nullCoalesce l left right).Quiet := quiet_of_kind rfl

theorem quiet_isThere : (isThere l left).Quiet := quiet_of_kind rfl

theorem quiet_notNull : (notNull l left).Quiet := quiet_of_kind rfl

theorem quiet_operandTest (name : Text) : (operandTest name l left).Quiet := quiet_of_kind rfl

theorem quiet_none : (Node.list .arguments l []).Quiet := quiet_of_kind rfl

theorem copies_nullCoalesce : (nullCoalesce l left right).copies =
    [[.expr1, .left, .node], [.expr1, .right, .node, .node], [.expr2]] := rfl

theorem stored_nullCoalesce : ∀ path ∈ (nullCoalesce l left right).copies,
    (nullCoalesce l left right).at? path = some left := by
  rw [copies_nullCoalesce]
  simp only [List.forall_mem_cons, List.not_mem_nil, false_imp_iff, implies_true, and_true]
  exact ⟨rfl, rfl, rfl⟩

/-- The nodes around the first copy of a left operand. -/
def aroundDefined (around : List Node) : List Node :=
  operandTest "defined" l left :: isThere l left :: nullCoalesce l left right :: around

/-- The nodes around the second copy of a left operand. -/
def aroundNull (around : List Node) : List Node :=
  operandTest "null" l left :: notNull l left :: isThere l left ::
    nullCoalesce l left right :: around

/-- The nodes around the copies of a left operand, in the order of a walk. -/
def aroundCopies (around : List Node) : List (List Node) :=
  [aroundDefined l left right around, aroundNull l left right around,
    nullCoalesce l left right :: around]

theorem outlook_defined (around : List Node) :
    SameOutlook (aroundDefined l left right around) (nullCoalesce l left right :: around) :=
  (SameOutlook.skip rfl rfl _).trans (.skip rfl rfl _)

theorem outlook_null (around : List Node) :
    SameOutlook (aroundNull l left right around) (nullCoalesce l left right :: around) :=
  ((SameOutlook.skip rfl rfl _).trans (.skip rfl rfl _)).trans (.skip rfl rfl _)

theorem walked_operandTest (name : Text) (t : Tracker) (around : List Node) :
    t.walked around (operandTest name l left) =
      t.walked (operandTest name l left :: around) left := by
  have hnone (t : Tracker) (around : List Node) :
      t.walked around (.list .arguments l []) = t := by
    rw [(quiet_none l).walked, children_none, slotWalked_nil]
  rw [(quiet_operandTest l left name).walked, children_operandTest,
    (quiet_operandTest l left name).slotWalked_cons,
    (quiet_operandTest l left name).slotWalked_cons, hnone, slotWalked_nil]

theorem walked_isThere (t : Tracker) (around : List Node) :
    t.walked (nullCoalesce l left right :: around) (isThere l left) =
      (t.walked (aroundDefined l left right around) left).walked
        (aroundNull l left right around) left := by
  rw [(quiet_isThere l left).walked, children_isThere, (quiet_isThere l left).slotWalked_cons,
    (quiet_isThere l left).slotWalked_cons, slotWalked_nil, walked_operandTest,
    (quiet_notNull l left).walked, children_notNull, (quiet_notNull l left).slotWalked_cons,
    slotWalked_nil, walked_operandTest]
  rfl

theorem moments_self (s : State) (n : Node) : [(s, n)].Sublist (moments s n) := by
  rw [moments_eq]
  exact (List.nil_sublist _).cons_cons _

/-- A walk of what `??` stands for comes to the three copies of the left operand in turn. -/
theorem visits_nullCoalesce (t : Tracker) (around : List Node) :
    ((visits left t (aroundCopies l left right around)).map fun s => (s, left)).Sublist
      (moments ⟨some t, around⟩ (nullCoalesce l left right)) := by
  let t₁ := t.walked (aroundDefined l left right around) left
  let t₂ := t₁.walked (aroundNull l left right around) left
  have htest (name : Text) (t : Tracker) (around : List Node) :
      [(⟨some t, operandTest name l left :: around⟩, left)].Sublist
        (moments ⟨some t, around⟩ (operandTest name l left)) := by
    rw [(quiet_operandTest l left name).moments, children_operandTest,
      (quiet_operandTest l left name).slotMoments_cons]
    exact ((moments_self _ left).trans (List.sublist_append_left ..)).cons _
  have hnull : [(⟨some t₁, aroundNull l left right around⟩, left)].Sublist
      (moments ⟨some t₁, isThere l left :: nullCoalesce l left right :: around⟩
        (notNull l left)) := by
    rw [(quiet_notNull l left).moments, children_notNull, (quiet_notNull l left).slotMoments_cons]
    exact ((htest "null" t₁ _).trans (List.sublist_append_left ..)).cons _
  have hthere : [(⟨some t, aroundDefined l left right around⟩, left),
      (⟨some t₁, aroundNull l left right around⟩, left)].Sublist
        (moments ⟨some t, nullCoalesce l left right :: around⟩ (isThere l left)) := by
    rw [(quiet_isThere l left).moments, children_isThere, (quiet_isThere l left).slotMoments_cons,
      (quiet_isThere l left).slotMoments_cons, walked_operandTest]
    exact ((htest "defined" t _).append (hnull.trans (List.sublist_append_left ..))).cons _
  rw [(quiet_nullCoalesce l left right).moments, children_nullCoalesce,
    (quiet_nullCoalesce l left right).slotMoments_cons,
    (quiet_nullCoalesce l left right).slotMoments_cons, walked_isThere]
  refine (hthere.append ?_).cons _
  exact (moments_self ⟨some t₂, _⟩ left).trans (List.sublist_append_left ..)

/-! ## What `?:` stands for -/

section

variable (operand : Node) (alternative : Option Node)

theorem quiet_conditional : (conditional l left right alternative).Quiet := by
  cases alternative <;> exact quiet_of_kind rfl

theorem children_conditional : (conditional l left right alternative).children =
    (.expr1, left) :: (.expr2, right) :: alternative.toList.map fun n => (.expr3, n) := by
  cases alternative <;> rfl

theorem coalesces_conditional : (conditional l left right alternative).coalesces = false := by
  cases alternative <;> rfl

/-- A conditional as it is written has copies only where the condition is the value. -/
theorem copies_conditional : (conditional l left right alternative).copies =
    if left = right then [[.expr1], [.expr2]] else [] := by
  have hkind : (conditional l left right alternative).kind = .conditional := by
    cases alternative <;> rfl
  have hexpr1 : (conditional l left right alternative).child? .expr1 = some left := by
    cases alternative <;> rfl
  have hexpr2 : (conditional l left right alternative).child? .expr2 = some right := by
    cases alternative <;> rfl
  rw [Node.copies, coalesces_conditional, hkind, hexpr1, hexpr2]
  simp

theorem stored_conditional : ∀ path ∈ (conditional l operand operand alternative).copies,
    (conditional l operand operand alternative).at? path = some operand := by
  rw [copies_conditional, if_pos rfl]
  simp only [List.forall_mem_cons, List.not_mem_nil, false_imp_iff, implies_true, and_true]
  cases alternative <;> exact ⟨rfl, rfl⟩

theorem places_conditional (around : List Node) :
    let choice := conditional l operand operand alternative
    choice.copies.map (choice.around around) = [choice :: around, choice :: around] := by
  intro choice
  rw [copies_conditional, if_pos rfl]
  cases alternative <;> rfl

theorem visits_conditional (t : Tracker) (around : List Node) :
    let choice := conditional l operand operand alternative
    ((visits operand t [choice :: around, choice :: around]).map fun s => (s, operand)).Sublist
      (moments ⟨some t, around⟩ choice) := by
  intro choice
  have hquiet : choice.Quiet := quiet_conditional l operand operand alternative
  rw [hquiet.moments, children_conditional, hquiet.slotMoments_cons, hquiet.slotMoments_cons]
  exact ((moments_self _ operand).append
    ((moments_self _ operand).trans (List.sublist_append_left ..))).cons _

end

/-- Conditionals are expressions. -/
theorem Built.expression_of_conditional {Q : Token → Prop} {c : Category} {n : Node}
    (h : Built Q c n) (hkind : n.kind = .conditional) : c = .expression := by
  have hadmits := h.kind
  rw [hkind] at hadmits
  cases c with
  | expression => rfl
  | _ => cases hadmits

/-- The parts of conditionals are expressions. -/
theorem Built.child_of_conditional {Q : Token → Prop} {n : Node} (h : Built Q .expression n)
    (hkind : n.kind = .conditional) {entry : Slot × Node} (hentry : entry ∈ n.children) :
    Built Q .expression entry.2 := by
  refine (h.below_expression hentry).resolve_right ?_
  rintro ⟨harrow, -⟩
  rw [hkind] at harrow
  cases harrow

end Parser

/-- What is marked as `??` is what `??` stands for. -/
theorem Parser.Built.of_coalesces {Q : Token → Prop} {c : Category} {n : Node} (h : Built Q c n)
    (hcoalesces : n.coalesces = true) : ∃ l left right, n = Parser.nullCoalesce l left right := by
  have hkind : n.kind = .conditional := by
    rw [Node.coalesces, Bool.and_eq_true, beq_iff_eq] at hcoalesces
    exact hcoalesces.1
  rcases h.choice hkind with hwhole | ⟨l, condition, value, alternative, rfl⟩
  · exact hwhole
  · rw [Parser.coalesces_conditional] at hcoalesces
    cases hcoalesces

/-! ## Findings in the copies -/

section

variable {ctx : Context} {around : List Node} {choice operand : Node}

/-- Where `??` is the nearest one around, its left operand need not be defined. -/
theorem guarded_operand (hnearest : ctx.ancestors.find? Node.coalesces = some choice)
    (hoperand : choice.child? .expr2 = some operand) : isGuarded ctx operand = true := by
  have hsame : sameReference operand operand = true := by simp [sameReference]
  unfold Node.coalesces at hnearest
  simp [isGuarded, Context.nearest?, hnearest, hoperand, hsame]

theorem parentIs_false {kind : Kind} (h : ∀ p ∈ ctx.ancestors.head?, p.kind ≠ kind)
    (operator : Text) : parentIs ctx kind operator = false := by
  unfold parentIs Context.parent?
  cases hparent : ctx.ancestors.head? with
  | none => rfl
  | some p => simp [h p hparent]

end

namespace Engine

variable {e : Engine} {ctx : Context} {Q : Token → Prop}
  (hsteady : ∀ entry ∈ e.registry.entries, Steady entry.2)
include hsteady

/-- The same is found in an operand at all places where `??` is the nearest one around and a test or
`??` itself is right around. -/
theorem output_operand {choice operand : Node} (hbuilt : Built Q .expression operand)
    (hoperand : choice.child? .expr2 = some operand) {t t' : Tracker} (h : SameLayout t t')
    {around around' : List Node} (houtlook : SameOutlook around around')
    (hnearest : around.find? Node.coalesces = some choice)
    (hparent : ∀ p ∈ around.head?, p.kind = .test ∨ p.kind = .conditional)
    (hparent' : ∀ p ∈ around'.head?, p.kind = .test ∨ p.kind = .conditional) :
    e.output (ctx.within t around) operand = e.output (ctx.within t' around') operand := by
  have hother {p : Node} (hp : p.kind = .test ∨ p.kind = .conditional) :
      p.kind ≠ .unary ∧ p.kind ≠ .binary := by
    rcases hp with hp | hp <;> rw [hp] <;> exact ⟨by decide, by decide⟩
  refine output_of_finds hbuilt trivial trivial h (fun h => finds_congr hsteady fun name => ?_)
    fun entry hentry _ _ h => ?_
  · refine resembles_of_outlook { ctx with rule := name } h houtlook ?_ ?_ ?_
    · rw [guarded_operand hnearest hoperand,
        guarded_operand (houtlook.coalescing ▸ hnearest) hoperand]
    · rw [parentIs_false fun p hp => (hother (hparent p hp)).1,
        parentIs_false fun p hp => (hother (hparent' p hp)).1]
    · rw [parentIs_false fun p hp => (hother (hparent p hp)).2,
        parentIs_false fun p hp => (hother (hparent' p hp)).2]
  · exact output_of_parent hsteady (hbuilt.child hentry) (hbuilt.fits_child trivial entry.1)
      (hbuilt.fits_child trivial entry.1) h rfl (houtlook.cons operand)

/-- The same is found in all copies of a left operand. -/
theorem output_copies {l : Location} {left right : Node} (hbuilt : Built Q .expression left)
    {t u : Tracker} (htu : SameLayout t u) {around copy : List Node}
    (hcopy : copy ∈ Parser.aroundCopies l left right around) :
    e.output (ctx.within u copy) left =
      e.output (ctx.within t (Parser.nullCoalesce l left right :: around)) left := by
  have hplace : SameOutlook copy (Parser.nullCoalesce l left right :: around) ∧
      ∀ p ∈ copy.head?, p.kind = .test ∨ p.kind = .conditional := by
    simp only [Parser.aroundCopies, List.mem_cons, List.not_mem_nil, or_false] at hcopy
    rcases hcopy with rfl | rfl | rfl
    · exact ⟨Parser.outlook_defined l left right around, by rintro p ⟨⟩; exact .inl rfl⟩
    · exact ⟨Parser.outlook_null l left right around, by rintro p ⟨⟩; exact .inl rfl⟩
    · exact ⟨.refl _, by rintro p ⟨⟩; exact .inr rfl⟩
  have hnearest : copy.find? Node.coalesces = some (Parser.nullCoalesce l left right) := by
    rw [hplace.1.coalescing]
    rfl
  exact output_operand hsteady hbuilt rfl htu.symm hplace.1 hnearest hplace.2
    (by rintro p ⟨⟩; exact .inr rfl)

/-- A walk that comes to `??` or `?:` comes to all copies of its operand in turn, and finds the same
in each. -/
theorem copies_visited (ctx : Context) {c : Category} {n : Node} (hn : Built Q c n)
    (hcopies : n.copies ≠ []) (t : Tracker) (around : List Node) :
    ∃ operand, (∀ path ∈ n.copies, n.at? path = some operand) ∧
      (∃ entry ∈ n.children, entry.2 = operand ∧ Built Q .expression operand) ∧
      ((visits operand t (n.copies.map (n.around around))).map fun s => (s, operand)).Sublist
        (moments ⟨some t, around⟩ n) ∧
      ∃ ds, ∀ copy ∈ n.copies.map (n.around around), ∀ {u : Tracker}, SameLayout t u →
        e.output (ctx.within u copy) operand = ds := by
  have hkind : n.kind = .conditional := by
    by_contra hkind
    refine hcopies ?_
    simp [Node.copies, Node.coalesces, hkind]
  obtain rfl := hn.expression_of_conditional hkind
  rcases hn.choice hkind with ⟨l, left, right, rfl⟩ | ⟨l, condition, value, alternative, rfl⟩
  · have hleft : (Slot.expr2, left) ∈ (Parser.nullCoalesce l left right).children := by
      simp [Parser.children_nullCoalesce]
    refine ⟨left, Parser.stored_nullCoalesce l left right, ⟨_, hleft, rfl, hn.child hleft⟩,
      Parser.visits_nullCoalesce l left right t around, ?_⟩
    exact ⟨_, fun copy hcopy _ htu => output_copies hsteady (hn.child hleft) htu hcopy⟩
  · obtain rfl : condition = value := by
      by_contra hne
      rw [Parser.copies_conditional] at hcopies
      exact hcopies (if_neg hne)
    have hmem : (Slot.expr1, condition) ∈
        (Parser.conditional l condition condition alternative).children := by
      simp [Parser.children_conditional]
    have hbuilt := hn.child_of_conditional hkind hmem
    rw [Parser.places_conditional]
    refine ⟨condition, Parser.stored_conditional l condition alternative, ⟨_, hmem, rfl, hbuilt⟩,
      Parser.visits_conditional l condition alternative t around, ?_⟩
    let inside := Parser.conditional l condition condition alternative :: around
    refine ⟨e.output (ctx.within t inside) condition, fun copy hcopy u htu => ?_⟩
    obtain rfl : copy = inside := by simpa using hcopy
    exact output_of_parent hsteady hbuilt trivial trivial htu.symm rfl (.refl inside)

end Engine

end TwigLint
