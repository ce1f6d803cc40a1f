import TwigLint.Template.Parser.Statement
import TwigLint.Proofs.Template.Tree

/-! # Trees that the parser builds

A tree of the parser consists of expressions, statements, and names that are bound.  What a part
stands for decides which kinds of nodes it can be and what its children stand for.  All positions
are those of tokens with a property `Q`, such as that of lying in the source, and the names that
tags bind are such tokens and not reserved.  What `??` stands for has exactly the form that the
parser gives to it.
-/

namespace TwigLint.Parser

open Node

/-- What a part of a tree stands for. -/
inductive Category where
  /-- A value, or arguments and entries inside of one. -/
  | expression
  /-- A parameter of an arrow function. -/
  | parameter
  | parameters
  /-- A name that a tag binds, with a default value or without one. -/
  | target
  | targets
  /-- Text, a tag or a body, and what tags and bodies consist of. -/
  | statement
  deriving DecidableEq

namespace Category

/-- The kinds of the nodes that stand for such a part. -/
def admits : Category → Kind → Bool
  | expression, kind => kind.isExpression || [.arguments, .namedArgument, .pair].contains kind
  | parameter, kind | target, kind => kind == .assignName
  | parameters, kind | targets, kind => kind == .targets
  | statement, kind =>
    [.statement, .loop, .embedding].contains kind.family ||
      [.template, .body, .text, .arguments, .pair].contains kind

/-- What the child at a slot stands for. -/
def below : Category → Kind → Slot → Category
  | expression, kind, slot =>
    match slot with
    | .params => if kind = .arrow then parameters else expression
    | _ => expression
  | parameter, _, _ | target, _, _ => expression
  | parameters, _, _ => parameter
  | targets, _, _ => target
  | statement, kind, slot =>
    match kind, slot with
    | .forTag, .keyTarget | .forTag, .valueTarget => target
    | .setTag, .targets | .macroTag, .targets | .importTag, .targets | .fromTag, .targets => targets
    | .setTag, .values | .forTag, .elseBody | .ifTag, .elseBody | .ifTag, .tests => statement
    | .pair, .value | .transTag, .plural | .body, _ | _, .body => statement
    | _, _ => expression

end Category

/-- The node is what `??` stands for, or a conditional as it is written. -/
def IsChoice (n : Node) : Prop :=
  (∃ l left right, n = nullCoalesce l left right) ∨
    ∃ l condition consequent alternative, n = conditional l condition consequent alternative

/-- The position of a token with the property `Q`. -/
def Placed (Q : Token → Prop) (l : Location) : Prop := ∃ tok, Q tok ∧ tok.location = l

theorem Placed.of {Q : Token → Prop} {tok : Token} (h : Q tok) : Placed Q tok.location :=
  ⟨tok, h, rfl⟩

/-- The token, which has the property `Q`, is a name that a tag can bind. -/
structure Bindable (Q : Token → Prop) (tok : Token) : Prop where
  token : Q tok
  type : tok.type = .name
  unreserved : tok.value ∉ reservedNames

/-- The trees that the parser builds of tokens with the property `Q`. -/
inductive Built (Q : Token → Prop) : Category → Node → Prop
  | node {c : Category} {n : Node} (kind : c.admits n.kind = true) (location : Placed Q n.location)
      (choice : n.kind = .conditional → IsChoice n)
      (bound : c = .target → ∃ tok, Bindable Q tok ∧ n.name = tok.value)
      (children : ∀ entry ∈ n.children, Built Q (c.below n.kind entry.1) entry.2) : Built Q c n

variable {Q : Token → Prop} {c : Category} {n : Node}

namespace Built

theorem kind (h : Built Q c n) : c.admits n.kind = true := by
  cases h
  assumption

theorem location (h : Built Q c n) : Placed Q n.location := by
  cases h
  assumption

theorem choice (h : Built Q c n) (hkind : n.kind = .conditional) : IsChoice n := by
  cases h with
  | node _ _ choice _ _ => exact choice hkind

theorem bound (h : Built Q .target n) : ∃ tok, Bindable Q tok ∧ n.name = tok.value := by
  cases h with
  | node _ _ _ bound _ => exact bound rfl

theorem child (h : Built Q c n) {entry : Slot × Node} (hentry : entry ∈ n.children) :
    Built Q (c.below n.kind entry.1) entry.2 := by
  cases h with
  | node _ _ _ _ children => exact children entry hentry

/-- All nodes of such a tree stand for something. -/
theorem of_mem_nodes (h : Built Q c n) {m : Node} (hm : m ∈ n.nodes) : ∃ c', Built Q c' m := by
  induction n using Node.induction generalizing c with
  | node n ih =>
    rcases mem_nodes.mp hm with rfl | ⟨entry, hentry, hm⟩
    · exact ⟨c, h⟩
    · exact ih entry hentry (h.child hentry) hm

/-- The children of an expression are expressions, apart from the parameters of an arrow
function. -/
theorem below_expression (h : Built Q .expression n) {entry : Slot × Node}
    (hentry : entry ∈ n.children) :
    Built Q .expression entry.2 ∨ n.kind = .arrow ∧ Built Q .parameters entry.2 := by
  have hchild := h.child hentry
  simp only [Category.below] at hchild
  split at hchild
  · split at hchild
    · exact .inr ⟨‹_›, hchild⟩
    · exact .inl hchild
  · exact .inl hchild

end Built

/-! ## Construction -/

/-- The kind fits, and such parts of it may have any attributes and any children that fit:
conditionals and the names that tags bind may not. -/
def Category.plain (c : Category) (kind : Kind) : Bool :=
  c.admits kind && kind != .conditional && c != .target

theorem plain_statement {kind : Kind} (h : Category.admits .statement kind = true) :
    Category.plain .statement kind = true := by
  rw [Category.plain, h, Bool.true_and, Bool.and_eq_true, bne_iff_ne]
  refine ⟨?_, rfl⟩
  rintro rfl
  cases h

/-- A part of a known kind, which is no conditional and no name that a tag binds. -/
structure Plain (Q : Token → Prop) (c : Category) (kind : Kind) (n : Node) : Prop where
  built : Built Q c n
  plain : c.plain kind = true
  kind : n.kind = kind

theorem plain_node {kind : Kind} (hplain : c.plain kind = true) (hkind : n.kind = kind)
    (hl : Placed Q n.location) (h : ∀ entry ∈ n.children, Built Q (c.below kind entry.1) entry.2) :
    Plain Q c kind n := by
  subst hkind
  simp only [Category.plain, Bool.and_eq_true, bne_iff_ne] at hplain
  obtain ⟨⟨hadmits, hother⟩, hfree⟩ := hplain
  exact ⟨.node hadmits hl (fun hkind => absurd hkind hother) (fun hc => absurd hc hfree) h,
    by simp [Category.plain, hadmits, hother, hfree], rfl⟩

theorem plain_leaf (c : Category) (kind : Kind) {l : Location} (hplain : c.plain kind = true)
    (hl : Placed Q l) : Plain Q c kind (leaf kind l) :=
  plain_node hplain rfl hl fun _ hentry => nomatch hentry

theorem plain_listOf (c : Category) (kind : Kind) {l : Location} {children : List Node}
    (hplain : c.plain kind = true) (hl : Placed Q l)
    (h : ∀ i, ∀ m ∈ children, Built Q (c.below kind (.item i)) m) :
    Plain Q c kind (listOf kind l children) := by
  refine plain_node hplain rfl hl fun entry hentry => ?_
  obtain ⟨i, hi⟩ := slot_of_mem_listOf hentry
  rw [hi]
  exact h i _ (mem_children_listOf hentry)

namespace Plain

variable {kind : Kind}

theorem withAttr (h : Plain Q c kind n) (a : Attr) (v : Value) :
    Plain Q c kind (n.withAttr a v) :=
  plain_node h.plain h.kind h.built.location
    fun _ hentry => h.kind ▸ h.built.child hentry

theorem withOption (h : Plain Q c kind n) (slot : Slot) {child : Option Node}
    (hchild : ∀ m ∈ child, Built Q (c.below kind slot) m) :
    Plain Q c kind (n.withChild slot child) := by
  refine plain_node h.plain ((kind_withChild ..).trans h.kind) ?_ fun entry hentry => ?_
  · rw [location_withChild]
    exact h.built.location
  · rcases mem_children_withChild hentry with ⟨rfl, hmem⟩ | hold
    · exact hchild _ hmem
    · exact h.kind ▸ h.built.child hold

theorem withChild (h : Plain Q c kind n) (slot : Slot) {child : Node}
    (hchild : Built Q (c.below kind slot) child) : Plain Q c kind (n.withChild slot child) :=
  h.withOption slot fun _ hm => Option.mem_some.mp hm ▸ hchild

end Plain

/-! ## Derived forms -/

section Derived

variable {l : Location} (hl : Placed Q l)
include hl

theorem built_constant (v : Value) : Built Q .expression (constant l v) :=
  ((plain_leaf .expression .constant rfl hl).withAttr .value v).built

theorem built_list {kind : Kind} {children : List Node}
    (hplain : Category.plain .expression kind = true) (h : ∀ m ∈ children, Built Q .expression m) :
    Built Q .expression (listOf kind l children) :=
  (plain_listOf .expression kind hplain hl fun _ => h).built

theorem built_none : Built Q .expression (list .arguments l []) :=
  (plain_listOf .expression .arguments rfl hl fun _ => List.forall_mem_nil _).built

variable {node left right : Node} (hnode : Built Q .expression node)
  (hleft : Built Q .expression left) (hright : Built Q .expression right)

include hnode in
theorem built_unary (operator : Text) : Built Q .expression (unary l operator node) :=
  (((plain_leaf .expression .unary rfl hl).withAttr .operator _).withChild .node
    hnode).built

include hleft hright in
theorem built_binary (operator : Text) : Built Q .expression (binary l operator left right) :=
  ((((plain_leaf .expression .binary rfl hl).withAttr .operator _).withChild .left
    hleft).withChild .right hright).built

include hnode hright in
theorem built_test (name : Text) : Built Q .expression (test l name node right) :=
  ((((plain_leaf .expression .test rfl hl).withAttr .name _).withChild .node
    hnode).withChild .arguments hright).built

include hleft hright in
theorem built_conditional (alternative : Option Node)
    (h : ∀ m ∈ alternative, Built Q .expression m) :
    Built Q .expression (conditional l left right alternative) := by
  refine .node ?_ ?_ (fun _ => .inr ⟨l, left, right, alternative, rfl⟩) nofun
    fun entry hentry => ?_
  · rw [conditional, kind_withChild]
    rfl
  · rw [conditional, location_withChild]
    exact hl
  · rw [conditional, kind_withChild]
    rcases mem_children_withChild hentry with ⟨hslot, hmem⟩ | hmem
    · rw [hslot]
      exact h _ hmem
    · have hmem : entry ∈ [(Slot.expr1, left), (Slot.expr2, right)] := hmem
      simp only [List.mem_cons, List.not_mem_nil, or_false] at hmem
      rcases hmem with rfl | rfl
      · exact hleft
      · exact hright

include hleft hright in
theorem built_nullCoalesce : Built Q .expression (nullCoalesce l left right) := by
  have hdefined := built_test hl hleft (built_none hl) "defined"
  have hnull := built_test hl hleft (built_none hl) "null"
  have hguard := built_binary hl hdefined (built_unary hl hnull "not") "and"
  refine .node rfl hleft.location (fun _ => .inl ⟨l, left, right, rfl⟩) nofun
    fun entry hentry => ?_
  have hmem : entry ∈ [(Slot.expr1, _), (Slot.expr2, left), (Slot.expr3, right)] := hentry
  simp only [List.mem_cons, List.not_mem_nil, or_false] at hmem
  rcases hmem with rfl | rfl | rfl
  · exact hguard
  · exact hleft
  · exact hright

include hright in
theorem built_filter (name : Text) {filtered : Option Node}
    (h : ∀ m ∈ filtered, Built Q .expression m) :
    Built Q .expression (filter l name filtered right) :=
  ((((plain_leaf .expression .filter rfl hl).withAttr .name _).withOption .node
    h).withChild .arguments hright).built

include hnode hright in
theorem built_getAttr (callType : Text) {arguments : Option Node}
    (h : ∀ m ∈ arguments, Built Q .expression m) :
    Built Q .expression (getAttr l callType node right arguments) :=
  (((((plain_leaf .expression .getAttr rfl hl).withAttr .callType _).withChild .node
    hnode).withChild .attribute hright).withOption .arguments h).built

end Derived

theorem built_pair {key value : Node} (hkey : Built Q .expression key)
    (hvalue : Built Q .expression value) : Built Q .expression (pair key value) :=
  (((plain_leaf .expression .pair rfl hkey.location).withChild .key hkey).withChild .value
    hvalue).built

theorem built_branch {condition body : Node} (hcondition : Built Q .expression condition)
    (hbody : Built Q .statement body) : Built Q .statement (pair condition body) :=
  (((plain_leaf .statement .pair rfl hcondition.location).withChild .key hcondition).withChild
    .value hbody).built

theorem built_reference {tok : Token} (hl : Placed Q tok.location) :
    Built Q .expression (reference tok) :=
  ((plain_leaf .expression .name rfl hl).withAttr .name _).built

theorem built_parameter {tok : Token} (hl : Placed Q tok.location) :
    Built Q .parameter (target tok) :=
  ((plain_leaf .parameter .assignName rfl hl).withAttr .name _).built

theorem built_parameters {l : Location} {names : List Node} (hl : Placed Q l)
    (h : ∀ m ∈ names, Built Q .parameter m) : Built Q .parameters (listOf .targets l names) :=
  (plain_listOf .parameters .targets rfl hl fun _ => h).built

namespace Bindable

variable {tok : Token} (h : Bindable Q tok)
include h

theorem target : Built Q .target (target tok) :=
  .node rfl (.of h.token) nofun (fun _ => ⟨tok, h, rfl⟩) fun _ hentry => nomatch hentry

theorem imported (name : Text) :
    Built Q .target ((Parser.target tok).withAttr .macroName (.text name)) :=
  .node rfl (.of h.token) nofun (fun _ => ⟨tok, h, rfl⟩) fun _ hentry => nomatch hentry

theorem withDefault {value : Node} (hvalue : Built Q .expression value) :
    Built Q .target ((Parser.target tok).withChild .value value) := by
  refine .node rfl (.of h.token) nofun (fun _ => ⟨tok, h, rfl⟩) fun entry hentry => ?_
  obtain rfl := List.mem_singleton.mp hentry
  exact hvalue

end Bindable

theorem built_targets {l : Location} {names : List Node} (hl : Placed Q l)
    (h : ∀ m ∈ names, Built Q .target m) : Built Q .targets (listOf .targets l names) :=
  (plain_listOf .targets .targets rfl hl fun _ => h).built

theorem built_body {l : Location} {nodes : List Node} (hl : Placed Q l)
    (h : ∀ m ∈ nodes, Built Q .statement m) : Built Q .statement (listOf .body l nodes) :=
  (plain_listOf .statement .body rfl hl fun _ => h).built

end TwigLint.Parser
