import TwigLint.Proofs.Engine.Arrange
import TwigLint.Proofs.Engine.Copies
import TwigLint.Lint.Validator

/-! # Walking operands once

A walk that leaves out the further copies of all operands finds the same but for duplicates, and
ends with a tracker that looks the same and reports the same unused names.
-/

namespace TwigLint

open Rules Tracker ScopedWalk
open TwigLint.Parser (Built Category)

/-! ## Walks that leave out copies -/

namespace ScopedWalk

/-- What is left of the paths that lead through a slot. -/
def pathsBelow (slot : Slot) (paths : List (List Slot)) : List (List Slot) :=
  paths.filterMap fun
    | [] => none
    | s :: path => if s = slot then some path else none

mutual
/-- Walks a tree like `ScopedWalk.visit`, but not the parts at the end of the given paths and not
the further copies of operands; the answer has the tracker after it and all observations. -/
def once {α : Type} (observe : Tracker → List Node → Node → List α) (t : Tracker)
    (around : List Node) (paths : List (List Slot)) : Node → Tracker × List α
  | ⟨kind, location, attrs, children⟩ =>
    let node : Node := ⟨kind, location, attrs, children⟩
    let t := t.run (t.onEnter node around)
    let (u, inner) := slotsOnce observe t (node :: around) node (paths ++ node.copies.tail) children
    (u.run (u.onLeave node), observe t around node ++ inner)

/-- Walks the children of a node from some slot on, but not the parts at the end of the given
paths. -/
def slotsOnce {α : Type} (observe : Tracker → List Node → Node → List α) (t : Tracker)
    (around : List Node) (node : Node) (paths : List (List Slot)) :
    List (Slot × Node) → Tracker × List α
  | [] => (t, [])
  | (slot, child) :: rest =>
    if [] ∈ pathsBelow slot paths then slotsOnce observe t around node paths rest
    else
      let (u, seen) :=
        once observe (t.run (t.onSlot node slot)) around (pathsBelow slot paths) child
      let (w, inner) := slotsOnce observe u around node paths rest
      (w, seen ++ inner)
end

section

variable {α : Type} (observe : Tracker → List Node → Node → List α) (t : Tracker)
  (around : List Node) (paths : List (List Slot))

theorem once_eq (node : Node) :
    once observe t around paths node =
      let entered := t.run (t.onEnter node around)
      let r := slotsOnce observe entered (node :: around) node (paths ++ node.copies.tail)
        node.children
      (r.1.run (r.1.onLeave node), observe entered around node ++ r.2) := by
  obtain ⟨kind, location, attrs, children⟩ := node
  rw [once]

theorem slotsOnce_skip {node child : Node} {slot : Slot} (rest : List (Slot × Node))
    (h : [] ∈ pathsBelow slot paths) :
    slotsOnce observe t around node paths ((slot, child) :: rest) =
      slotsOnce observe t around node paths rest := by
  rw [slotsOnce, if_pos h]

theorem slotsOnce_cons {node child : Node} {slot : Slot} (below : List (List Slot))
    (rest : List (Slot × Node)) (h : pathsBelow slot paths = below) (hvisited : [] ∉ below) :
    let r := once observe (t.run (t.onSlot node slot)) around below child
    slotsOnce observe t around node paths ((slot, child) :: rest) =
      ((slotsOnce observe r.1 around node paths rest).1,
        r.2 ++ (slotsOnce observe r.1 around node paths rest).2) := by
  rw [slotsOnce, h, if_neg hvisited]

/-- Paths that lead through other slots do not matter. -/
theorem slotsOnce_elsewhere {node : Node} {children : List (Slot × Node)}
    (h : ∀ entry ∈ children, pathsBelow entry.1 paths = []) :
    slotsOnce observe t around node paths children =
      slotsOnce observe t around node [] children := by
  induction children generalizing t with
  | nil => rfl
  | cons entry rest ih =>
    have hbelow := h entry (List.mem_cons_self ..)
    have hrest (t : Tracker) := ih t fun e he => h e (List.mem_cons_of_mem _ he)
    rw [slotsOnce_cons _ _ _ _ [] rest hbelow List.not_mem_nil,
      slotsOnce_cons _ _ _ [] [] rest rfl List.not_mem_nil, hrest]

end

end ScopedWalk

namespace Node.Quiet

variable {n : Node} (h : n.Quiet) {α : Type} (observe : Tracker → List Node → Node → List α)
  (t : Tracker) (around : List Node) {paths : List (List Slot)}
include h

theorem once (below : List (List Slot)) (hpaths : paths ++ n.copies.tail = below) :
    ScopedWalk.once observe t around paths n =
      ((slotsOnce observe t (n :: around) n below n.children).1,
        observe t around n ++ (slotsOnce observe t (n :: around) n below n.children).2) := by
  rw [once_eq, hpaths]
  simp only [h.onEnter, h.onLeave, run_nil]

theorem slotsOnce_cons {child : Node} {slot : Slot} (below : List (List Slot))
    (rest : List (Slot × Node)) (hbelow : pathsBelow slot paths = below)
    (hvisited : [] ∉ below) :
    let r := ScopedWalk.once observe t around below child
    slotsOnce observe t around n paths ((slot, child) :: rest) =
      ((slotsOnce observe r.1 around n paths rest).1,
        r.2 ++ (slotsOnce observe r.1 around n paths rest).2) := by
  rw [ScopedWalk.slotsOnce_cons _ _ _ _ below rest hbelow hvisited, h.onSlot, run_nil]

end Node.Quiet

/-! ## Walking `??` -/

namespace Parser

section Seen

variable {α : Type} (observe : Tracker → List Node → Node → List α) (l : Location)
  (left right : Node) (t : Tracker) (around : List Node)

/-- What is observed before the first copy of a left operand. -/
def seenAbove : List α :=
  let inside := nullCoalesce l left right :: around
  observe t around (nullCoalesce l left right) ++ (observe t inside (isThere l left) ++
    observe t (isThere l left :: inside) (operandTest "defined" l left))

/-- What is observed between the first two copies of a left operand. -/
def seenBetween : List α :=
  let inside := isThere l left :: nullCoalesce l left right :: around
  observe t (aroundDefined l left right around) (.list .arguments l []) ++
    (observe t inside (notNull l left) ++
      observe t (notNull l left :: inside) (operandTest "null" l left))

variable {observe t} {t' : Tracker} (h : observe t = observe t')
include h

theorem seenAbove_congr :
    seenAbove observe l left right t around = seenAbove observe l left right t' around := by
  rw [seenAbove, seenAbove, h]

theorem seenBetween_congr :
    seenBetween observe l left right t around = seenBetween observe l left right t' around := by
  rw [seenBetween, seenBetween, h]

end Seen

section Full

variable (e : Engine) (ctx : Context) (l : Location) (left right : Node) (t : Tracker)
  (around : List Node)

theorem output_none : e.output (ctx.within t around) (.list .arguments l []) =
    e.finds ctx t around (.list .arguments l []) := by
  rw [(quiet_none l).output, children_none, Engine.slotOutput, List.append_nil]

theorem output_operandTest (name : Text) :
    e.output (ctx.within t around) (operandTest name l left) =
      e.finds ctx t around (operandTest name l left) ++
        (e.output (ctx.within t (operandTest name l left :: around)) left ++
          e.finds ctx (t.walked (operandTest name l left :: around) left)
            (operandTest name l left :: around) (.list .arguments l [])) := by
  rw [(quiet_operandTest l left name).output, children_operandTest,
    (quiet_operandTest l left name).slotOutput_cons,
    (quiet_operandTest l left name).slotOutput_cons, output_none, Engine.slotOutput,
    List.append_nil]

theorem output_notNull : e.output (ctx.within t around) (notNull l left) =
    e.finds ctx t around (notNull l left) ++
      e.output (ctx.within t (notNull l left :: around)) (operandTest "null" l left) := by
  rw [(quiet_notNull l left).output, children_notNull, (quiet_notNull l left).slotOutput_cons,
    Engine.slotOutput, List.append_nil]

theorem output_isThere : e.output (ctx.within t around) (isThere l left) =
    e.finds ctx t around (isThere l left) ++
      (e.output (ctx.within t (isThere l left :: around)) (operandTest "defined" l left) ++
        e.output (ctx.within (t.walked (operandTest "defined" l left :: isThere l left :: around)
          left) (isThere l left :: around)) (notNull l left)) := by
  rw [(quiet_isThere l left).output, children_isThere, (quiet_isThere l left).slotOutput_cons,
    (quiet_isThere l left).slotOutput_cons, Engine.slotOutput, List.append_nil,
    walked_operandTest]

theorem output_nullCoalesce : e.output (ctx.within t around) (nullCoalesce l left right) =
    let inside := nullCoalesce l left right :: around
    let t₁ := t.walked (aroundDefined l left right around) left
    let t₂ := t₁.walked (aroundNull l left right around) left
    seenAbove (e.finds ctx) l left right t around ++
      (e.output (ctx.within t (aroundDefined l left right around)) left ++
        (seenBetween (e.finds ctx) l left right t₁ around ++
          (e.output (ctx.within t₁ (aroundNull l left right around)) left ++
            (e.finds ctx t₂ (aroundNull l left right around) (.list .arguments l []) ++
              (e.output (ctx.within t₂ inside) left ++
                e.slotOutput ctx (t₂.walked inside left) inside (nullCoalesce l left right)
                  [(.expr3, right)]))))) := by
  rw [(quiet_nullCoalesce l left right).output, children_nullCoalesce,
    (quiet_nullCoalesce l left right).slotOutput_cons,
    (quiet_nullCoalesce l left right).slotOutput_cons, walked_isThere, output_isThere,
    output_operandTest, output_notNull, output_operandTest]
  simp only [seenAbove, seenBetween, List.append_assoc]
  rfl

theorem output_conditional (operand : Node) (alternative : Option Node) :
    let choice := conditional l operand operand alternative
    let inside := choice :: around
    let t₁ := t.walked inside operand
    e.output (ctx.within t around) choice = e.finds ctx t around choice ++
      (e.output (ctx.within t inside) operand ++ (e.output (ctx.within t₁ inside) operand ++
        e.slotOutput ctx (t₁.walked inside operand) inside choice
          (alternative.toList.map fun n => (.expr3, n)))) := by
  intro choice inside t₁
  have hquiet : choice.Quiet := quiet_conditional l operand operand alternative
  rw [hquiet.output, children_conditional, hquiet.slotOutput_cons, hquiet.slotOutput_cons]

end Full

section Once

variable {α : Type} (observe : Tracker → List Node → Node → List α) (l : Location)
  (left right : Node) (t : Tracker) (around : List Node)

theorem once_none : once observe t around [] (.list .arguments l []) =
    (t, observe t around (.list .arguments l [])) := by
  rw [(quiet_none l).once observe t around [] rfl, children_none, slotsOnce, List.append_nil]

theorem once_definedTest : once observe t around [] (operandTest "defined" l left) =
    let inside := operandTest "defined" l left :: around
    let u := once observe t inside [] left
    (u.1, observe t around (operandTest "defined" l left) ++
      (u.2 ++ observe u.1 inside (.list .arguments l []))) := by
  rw [(quiet_operandTest l left "defined").once observe t around [] rfl, children_operandTest,
    (quiet_operandTest l left "defined").slotsOnce_cons _ _ _ [] _ rfl List.not_mem_nil,
    (quiet_operandTest l left "defined").slotsOnce_cons _ _ _ [] _ rfl List.not_mem_nil, once_none,
    slotsOnce, List.append_nil]

theorem once_nullTest : once observe t around [[.node]] (operandTest "null" l left) =
    (t, observe t around (operandTest "null" l left) ++
      observe t (operandTest "null" l left :: around) (.list .arguments l [])) := by
  rw [(quiet_operandTest l left "null").once observe t around [[.node]] rfl, children_operandTest,
    slotsOnce_skip _ _ _ _ _ (List.mem_cons_self ..),
    (quiet_operandTest l left "null").slotsOnce_cons _ _ _ [] _ rfl List.not_mem_nil, once_none,
    slotsOnce, List.append_nil]

theorem once_notNull : once observe t around [[.node, .node]] (notNull l left) =
    (t, observe t around (notNull l left) ++
      (observe t (notNull l left :: around) (operandTest "null" l left) ++
        observe t (operandTest "null" l left :: notNull l left :: around)
          (.list .arguments l []))) := by
  rw [(quiet_notNull l left).once observe t around [[.node, .node]] rfl, children_notNull,
    (quiet_notNull l left).slotsOnce_cons _ _ _ [[.node]] _ rfl (by decide), once_nullTest,
    slotsOnce, List.append_nil]

theorem once_isThere : once observe t around [[.right, .node, .node]] (isThere l left) =
    let inside := isThere l left :: around
    let first := once observe t inside [] (operandTest "defined" l left)
    let second := once observe first.1 inside [[.node, .node]] (notNull l left)
    (second.1, observe t around (isThere l left) ++ (first.2 ++ second.2)) := by
  rw [(quiet_isThere l left).once observe t around [[.right, .node, .node]] rfl, children_isThere,
    (quiet_isThere l left).slotsOnce_cons _ _ _ [] _ rfl List.not_mem_nil,
    (quiet_isThere l left).slotsOnce_cons _ _ _ [[.node, .node]] _ rfl (by decide), slotsOnce,
    List.append_nil]

theorem once_nullCoalesce : once observe t around [] (nullCoalesce l left right) =
    let inside := nullCoalesce l left right :: around
    let first := once observe t (aroundDefined l left right around) [] left
    let rest := slotsOnce observe first.1 inside (nullCoalesce l left right) [] [(.expr3, right)]
    let behind := observe first.1 (aroundNull l left right around) (.list .arguments l [])
    (rest.1, seenAbove observe l left right t around ++
      (first.2 ++ (seenBetween observe l left right first.1 around ++ (behind ++ rest.2)))) := by
  have helsewhere : ∀ entry ∈ [(Slot.expr3, right)],
      pathsBelow entry.1 [[.expr1, .right, .node, .node], [.expr2]] = [] := by
    intro entry hentry
    obtain rfl := List.mem_singleton.mp hentry
    rfl
  rw [(quiet_nullCoalesce l left right).once observe t around
      [[.expr1, .right, .node, .node], [.expr2]] rfl, children_nullCoalesce,
    (quiet_nullCoalesce l left right).slotsOnce_cons _ _ _ [[.right, .node, .node]] _ rfl
      (by decide),
    slotsOnce_skip _ _ _ _ _ (by decide), slotsOnce_elsewhere _ _ _ _ helsewhere]
  simp only [once_isThere, once_definedTest, once_notNull, seenAbove, seenBetween,
    List.append_assoc]
  rfl

theorem once_conditional (operand : Node) (alternative : Option Node) :
    let choice := conditional l operand operand alternative
    let inside := choice :: around
    let first := once observe t inside [] operand
    let rest := slotsOnce observe first.1 inside choice []
      (alternative.toList.map fun n => (.expr3, n))
    once observe t around [] choice =
      (rest.1, observe t around choice ++ (first.2 ++ rest.2)) := by
  intro choice inside first rest
  have hquiet : choice.Quiet := quiet_conditional l operand operand alternative
  have hpaths : [] ++ choice.copies.tail = [[.expr2]] := by
    rw [copies_conditional, if_pos rfl]
    rfl
  have helsewhere : ∀ entry ∈ alternative.toList.map fun n => (Slot.expr3, n),
      pathsBelow entry.1 [[.expr2]] = [] := by
    intro entry hentry
    obtain ⟨m, -, rfl⟩ := List.mem_map.mp hentry
    rfl
  rw [hquiet.once observe t around _ hpaths, children_conditional,
    hquiet.slotsOnce_cons _ _ _ [] _ rfl List.not_mem_nil,
    slotsOnce_skip _ _ _ _ _ (List.mem_cons_self ..), slotsOnce_elsewhere _ _ _ _ helsewhere]

end Once

end Parser

/-! ## The same without duplicates -/

/-- The walk of a tree that leaves out copies finds the same as the full walk but for duplicates,
and their trackers go on to be alike. -/
def Engine.AlikeOnce (e : Engine) (ctx : Context) (n : Node) : Prop :=
  ∀ t t' : Tracker, Alike t t' → Foreign t n → ∀ around,
    Alike (t.walked around n) (once (e.finds ctx) t' around [] n).1 ∧
      Diagnostic.dedup (e.output (ctx.within t around) n) =
        Diagnostic.dedup (once (e.finds ctx) t' around [] n).2

namespace Engine

variable {e : Engine} {ctx : Context} {Q : Token → Prop} {c : Category} {n : Node}

theorem slots_alike {base : Tracker} (hbase : Foreign base n) {children : List (Slot × Node)}
    (hsub : ∀ entry ∈ children, entry ∈ n.children)
    (h : ∀ entry ∈ children, e.AlikeOnce ctx entry.2) {opened : Bool} {t t' : Tracker}
    (ht : Stands base n opened t) (halike : Alike t t') (around : List Node) :
    let r := slotsOnce (e.finds ctx) t' around n [] children
    Alike (t.slotWalked around n children) r.1 ∧
      Diagnostic.dedup (e.slotOutput ctx t around n children) = Diagnostic.dedup r.2 := by
  induction children generalizing opened t t' with
  | nil => exact ⟨halike, rfl⟩
  | cons entry rest ih =>
    have hentry := List.mem_cons_self (a := entry) (l := rest)
    obtain ⟨turned, hturned, -⟩ := ht.onSlot hbase entry.1 Matched
    have hforeign := hturned.foreign hbase (hsub entry hentry)
    have hmatched := matched_operations around hforeign
    obtain ⟨hafter, hfound⟩ := h entry hentry _ _ (halike.run (t.onSlot n entry.1)) hforeign around
    obtain ⟨hend, hrest⟩ := ih (fun e he => hsub e (List.mem_cons_of_mem _ he))
      (fun e he => h e (List.mem_cons_of_mem _ he)) (hturned.continues (hmatched.continues _))
      hafter
    rw [slotsOnce_cons _ _ _ [] [] rest rfl List.not_mem_nil, slotOutput, slotWalked_cons,
      ← halike.onSlot]
    exact ⟨hend, Diagnostic.dedup_congr hfound hrest⟩

/-- The same behind the copies of an operand, whether it has been walked once or several times. -/
theorem slots_alike_behind {operand : Node} (hbuilt : Built Q .expression operand) {t : Tracker}
    (ht : t.Reachable) (hforeign : Foreign t n) (hoperand : Foreign t operand) {first : List Node}
    {u : Tracker} (hu : Alike (t.walked first operand) u) (more : List (List Node))
    {rest : List (Slot × Node)} (hsub : ∀ entry ∈ rest, entry ∈ n.children)
    (hrest : ∀ entry ∈ rest, e.AlikeOnce ctx entry.2) (around : List Node) :
    let behind := t.walkedAt operand (first :: more)
    let r := slotsOnce (e.finds ctx) u around n [] rest
    Alike (behind.slotWalked around n rest) r.1 ∧
      Diagnostic.dedup (e.slotOutput ctx behind around n rest) = Diagnostic.dedup r.2 := by
  have hagain := alike_walkedAt hbuilt ht hoperand first more
  have hsame := (hbuilt.sameLayout_run ht hoperand first).trans hagain.toSameLayout
  exact slots_alike (hsame.foreign hforeign) hsub hrest (.refl _ n) (hagain.symm.trans hu) around

theorem slotsOnce_eq {children : List (Slot × Node)} (h : ∀ entry ∈ children, ∀ t around,
      once (e.finds ctx) t around [] entry.2 =
        (t.walked around entry.2, e.output (ctx.within t around) entry.2))
    (t : Tracker) (around : List Node) : slotsOnce (e.finds ctx) t around n [] children =
      (t.slotWalked around n children, e.slotOutput ctx t around n children) := by
  induction children generalizing t with
  | nil => rfl
  | cons entry rest ih =>
    obtain ⟨hentry, hrest⟩ := List.forall_mem_cons.mp h
    rw [slotsOnce_cons _ _ _ [] [] rest rfl List.not_mem_nil, hentry, slotWalked_cons, slotOutput,
      ih hrest]
    rfl

/-- Where there are no copies, nothing is left out. -/
theorem once_of_no_copies (h : ∀ m ∈ n.nodes, m.copies = []) (t : Tracker) (around : List Node) :
    once (e.finds ctx) t around [] n = (t.walked around n, e.output (ctx.within t around) n) := by
  induction n using Node.induction generalizing t around with
  | node n ih =>
    have hchildren := slotsOnce_eq (n := n) fun entry hentry =>
      ih entry hentry fun m hm => h m (Node.mem_nodes_of_child hentry hm)
    rw [once_eq, h n n.self_mem_nodes, walked_eq, output_node]
    simp only [List.tail_nil, List.append_nil, hchildren]

section Steady

variable (hsteady : ∀ entry ∈ e.registry.entries, Steady entry.2)
include hsteady

/-- The same is found where the scopes look the same. -/
theorem finds_of_layout (ctx : Context) {t t' : Tracker} (h : SameLayout t t') :
    e.finds ctx t = e.finds ctx t' := by
  funext around node
  refine finds_congr hsteady fun name => ?_
  exact resembles_of_parent { ctx with rule := name } h (.refl around) rfl

/-- A node without copies of an operand. -/
theorem alikeOnce_of_children (hcopies : n.copies = [])
    (h : ∀ entry ∈ n.children, e.AlikeOnce ctx entry.2) : e.AlikeOnce ctx n := by
  intro t t' halike hforeign around
  have hentered := halike.run (t.onEnter n around)
  obtain ⟨hleft, hfound⟩ := slots_alike (hforeign.onEnter around) (fun _ he => he) h (.refl _ n)
    hentered (n :: around)
  rw [once_eq, output_node, walked_eq, hcopies, ← halike.onEnter]
  refine ⟨?_, Diagnostic.dedup_congr ?_ hfound⟩
  · simp only [List.tail_nil, List.append_nil]
    rw [← hleft.onLeave]
    exact hleft.run _
  · rw [finds_of_layout hsteady ctx hentered.toSameLayout]

/-- The operand of `?:` is walked twice, the second time to no effect. -/
theorem alikeOnce_conditional {l : Location} {operand : Node} {alternative : Option Node}
    (hbuilt : Built Q .expression operand) (hoperand : e.AlikeOnce ctx operand)
    (halternative : ∀ m ∈ alternative, e.AlikeOnce ctx m) :
    e.AlikeOnce ctx (Parser.conditional l operand operand alternative) := by
  intro t t' halike hforeign around
  let choice := Parser.conditional l operand operand alternative
  let inside := choice :: around
  let rest := alternative.toList.map fun n => (Slot.expr3, n)
  have hchildren : choice.children = (.expr1, operand) :: (.expr2, operand) :: rest :=
    Parser.children_conditional l operand operand alternative
  have hinner : Foreign t operand :=
    hforeign.child (hchildren ▸ List.mem_cons_self .. : (Slot.expr1, operand) ∈ choice.children)
  obtain ⟨hfirst, hfound⟩ := hoperand t t' halike hinner inside
  have hsame := hbuilt.sameLayout_run halike.reachable hinner inside
  have hagain : e.output (ctx.within (t.walked inside operand) inside) operand =
      e.output (ctx.within t inside) operand :=
    output_of_parent hsteady hbuilt trivial trivial hsame.symm rfl (.refl inside)
  have hrest : ∀ entry ∈ rest, e.AlikeOnce ctx entry.2 := by
    intro entry hentry
    obtain ⟨m, hm, rfl⟩ := List.mem_map.mp hentry
    exact halternative m (Option.mem_toList.mp hm)
  obtain ⟨hend, hfoundRest⟩ := slots_alike_behind hbuilt halike.reachable hforeign hinner hfirst
    [inside] (fun _ h => hchildren ▸ List.mem_cons_of_mem _ (List.mem_cons_of_mem _ h)) hrest inside
  have hquiet : choice.Quiet := Parser.quiet_conditional l operand operand alternative
  rw [Parser.once_conditional, Parser.output_conditional, hquiet.walked, hchildren,
    hquiet.slotWalked_cons, hquiet.slotWalked_cons, hagain,
    finds_of_layout hsteady ctx halike.toSameLayout,
    Diagnostic.dedup_congr rfl (Diagnostic.dedup_repeated (List.Subset.refl _) _)]
  exact ⟨hend, Diagnostic.dedup_congr rfl (Diagnostic.dedup_congr hfound hfoundRest)⟩

/-- The same is found in all copies of the left operand of `??`, and around them nothing depends on
how often it has been walked. -/
theorem output_coalescing {l : Location} {left right : Node} (hbuilt : Built Q .expression left)
    {t : Tracker} (ht : t.Reachable) (hforeign : Foreign t left) (around : List Node) :
    let first := Parser.aroundDefined l left right around
    let second := Parser.aroundNull l left right around
    let inside := Parser.nullCoalesce l left right :: around
    let found := e.output (ctx.within t first) left
    e.output (ctx.within t around) (Parser.nullCoalesce l left right) =
      Parser.seenAbove (e.finds ctx) l left right t around ++
        (found ++ (Parser.seenBetween (e.finds ctx) l left right t around ++
          (found ++ (e.finds ctx t second (.list .arguments l []) ++
            (found ++ e.slotOutput ctx (t.walkedAt left [first, second, inside]) inside
              (Parser.nullCoalesce l left right) [(.expr3, right)]))))) := by
  intro first second inside found
  let t₁ := t.walked first left
  let t₂ := t₁.walked second left
  have hsame₁ : SameLayout t t₁ := hbuilt.sameLayout_run ht hforeign first
  have hsame₂ : SameLayout t t₂ :=
    hsame₁.trans (hbuilt.alike_run ht hforeign first second).toSameLayout
  have hcopy {u : Tracker} (hu : SameLayout t u) {copy : List Node}
      (hmem : copy ∈ [first, second, inside]) : e.output (ctx.within u copy) left = found := by
    have hfirst : found = e.output (ctx.within t inside) left :=
      output_copies hsteady hbuilt (Alike.refl ht).toSameLayout
        (List.mem_cons_self .. : first ∈ [first, second, inside])
    rw [hfirst]
    exact output_copies hsteady hbuilt hu hmem
  have hfound₂ : e.output (ctx.within t₁ second) left = found := hcopy hsame₁ (by simp)
  have hfound₃ : e.output (ctx.within t₂ inside) left = found := hcopy hsame₂ (by simp)
  have hbetween := Parser.seenBetween_congr l left right around
    (finds_of_layout hsteady ctx hsame₁)
  have hbehind := finds_of_layout hsteady ctx hsame₂
  rw [Parser.output_nullCoalesce, hbetween, hbehind]
  change _ ++ (_ ++ (_ ++ (e.output (ctx.within t₁ second) left ++
    (_ ++ (e.output (ctx.within t₂ inside) left ++ _))))) = _
  rw [hfound₂, hfound₃]
  rfl

/-- The left operand of `??` is walked three times, the second and the third time to no effect. -/
theorem alikeOnce_nullCoalesce {l : Location} {left right : Node}
    (hbuilt : Built Q .expression left) (hleft : e.AlikeOnce ctx left)
    (hright : e.AlikeOnce ctx right) :
    e.AlikeOnce ctx (Parser.nullCoalesce l left right) := by
  intro t t' halike hforeign around
  let choice := Parser.nullCoalesce l left right
  let inside := choice :: around
  let first := Parser.aroundDefined l left right around
  let second := Parser.aroundNull l left right around
  let rest := [(Slot.expr3, right)]
  have hinner : Foreign t left := hforeign.child
    (List.mem_cons_of_mem _ (List.mem_cons_self ..) : (Slot.expr2, left) ∈ choice.children)
  obtain ⟨hfirst, hfound⟩ := hleft t t' halike hinner first
  have hrest : ∀ entry ∈ rest, e.AlikeOnce ctx entry.2 := by
    intro entry hentry
    obtain rfl := List.mem_singleton.mp hentry
    exact hright
  have hsub : ∀ entry ∈ rest, entry ∈ choice.children := fun entry hentry =>
    List.mem_cons_of_mem _ (List.mem_cons_of_mem _ hentry)
  obtain ⟨hend, hfoundRest⟩ := slots_alike_behind hbuilt halike.reachable hforeign hinner hfirst
    [second, inside] hsub hrest inside
  have hquiet : choice.Quiet := Parser.quiet_nullCoalesce l left right
  have habove := Parser.seenAbove_congr l left right around
    (finds_of_layout hsteady ctx halike.toSameLayout)
  have hwalked := finds_of_layout hsteady ctx
    ((hbuilt.sameLayout_run halike.reachable hinner first).trans hfirst.toSameLayout)
  have hbetween := Parser.seenBetween_congr l left right around hwalked
  rw [output_coalescing hsteady hbuilt halike.reachable hinner,
    Diagnostic.dedup_thrice hfound hfoundRest, Parser.once_nullCoalesce, hquiet.walked,
    Parser.children_nullCoalesce, hquiet.slotWalked_cons, hquiet.slotWalked_cons,
    Parser.walked_isThere, habove, hbetween, hwalked]
  exact ⟨hend, rfl⟩

/-- A walk of any tree from the parser may leave out copies. -/
theorem alikeOnce_of_built (hn : Built Q c n) : e.AlikeOnce ctx n := by
  induction n using Node.induction generalizing c with
  | node n ih =>
    have hchildren : ∀ entry ∈ n.children, e.AlikeOnce ctx entry.2 := fun entry hentry =>
      ih entry hentry (hn.child hentry)
    rcases eq_or_ne n.kind .conditional with hkind | hkind
    · obtain rfl := hn.expression_of_conditional hkind
      rcases hn.choice hkind with ⟨l, left, right, rfl⟩ | ⟨l, condition, value, alternative, rfl⟩
      · have hleft : (Slot.expr2, left) ∈ (Parser.nullCoalesce l left right).children := by
          simp [Parser.children_nullCoalesce]
        have hright : (Slot.expr3, right) ∈ (Parser.nullCoalesce l left right).children := by
          simp [Parser.children_nullCoalesce]
        exact alikeOnce_nullCoalesce hsteady (hn.child hleft) (hchildren _ hleft)
          (hchildren _ hright)
      · rcases eq_or_ne condition value with rfl | hvalue
        · have hcondition : (Slot.expr1, condition) ∈
              (Parser.conditional l condition condition alternative).children := by
            simp [Parser.children_conditional]
          have halternative : ∀ m ∈ alternative, (Slot.expr3, m) ∈
              (Parser.conditional l condition condition alternative).children := by
            intro m hm
            simpa [Parser.children_conditional] using hm
          exact alikeOnce_conditional hsteady (hn.child_of_conditional hkind hcondition)
            (hchildren _ hcondition) fun m hm => hchildren _ (halternative m hm)
        · refine alikeOnce_of_children hsteady ?_ hchildren
          rw [Parser.copies_conditional, if_neg hvalue]
    · refine alikeOnce_of_children hsteady ?_ hchildren
      simp [Node.copies, Node.coalesces, hkind]

end Steady

end Engine

end TwigLint
