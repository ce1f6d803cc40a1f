import TwigLint.Template.Token
import TwigLint.Number.Shortest

/-! # Syntax tree

A template is a tree of uniform nodes.  A node has a kind, a source position, attributes, and
children in named slots; analyses ask for slots and attributes instead of matching on one node type
per construct.
-/

namespace TwigLint

/-- The syntactic category of a node.  No node of a template has the kind `any`: rules that apply
to every node are registered for it. -/
inductive Kind where
  | any
  | template
  | body
  | text
  | print
  | setTag
  | ifTag
  | doTag
  | flushTag
  | blockTag
  | transTag
  | applyTag
  | withTag
  | autoescapeTag
  | macroTag
  | importTag
  | fromTag
  | forTag
  | sandboxTag
  | includeTag
  | embedTag
  | extendsTag
  | constant
  | name
  | assignName
  | array
  | hash
  | pair
  | arguments
  | targets
  | namedArgument
  | filter
  | function
  | test
  | conditional
  | binary
  | unary
  | getAttr
  | arrow
  | spread
  | other (name : String)
  deriving DecidableEq, Repr

namespace Kind

def label : Kind → String
  | .any => "*"
  | .template => "template"
  | .body => "body"
  | .text => "text"
  | .print => "print"
  | .setTag => "set"
  | .ifTag => "if"
  | .doTag => "do"
  | .flushTag => "flush"
  | .blockTag => "block"
  | .transTag => "trans"
  | .applyTag => "apply"
  | .withTag => "with"
  | .autoescapeTag => "autoescape"
  | .macroTag => "macro"
  | .importTag => "import"
  | .fromTag => "from"
  | .forTag => "for"
  | .sandboxTag => "sandbox"
  | .includeTag => "include"
  | .embedTag => "embed"
  | .extendsTag => "extends"
  | .constant => "constant"
  | .name => "name"
  | .assignName => "assign_name"
  | .array => "array"
  | .hash => "hash"
  | .pair => "pair"
  | .arguments => "arguments"
  | .targets => "targets"
  | .namedArgument => "named_argument"
  | .filter => "filter"
  | .function => "function"
  | .test => "test"
  | .conditional => "conditional"
  | .binary => "binary"
  | .unary => "unary"
  | .getAttr => "get_attr"
  | .arrow => "arrow"
  | .spread => "spread"
  | .other s => s

/-- All kinds that have a constructor of their own. -/
def named : List Kind :=
  [.any, .template, .body, .text, .print, .setTag, .ifTag, .doTag, .flushTag, .blockTag,
    .transTag, .applyTag, .withTag, .autoescapeTag, .macroTag, .importTag, .fromTag, .forTag,
    .sandboxTag, .includeTag, .embedTag, .extendsTag, .constant, .name, .assignName, .array,
    .hash, .pair, .arguments, .targets, .namedArgument, .filter, .function, .test, .conditional,
    .binary, .unary, .getAttr, .arrow, .spread]

/-- The kind with a given label. -/
def ofLabel (s : String) : Kind := (named.find? (·.label == s)).getD (.other s)
end Kind

/-- The coarse group of a kind. -/
inductive Family where
  | generic
  | statement
  | loop
  | embedding
  | call
  | filter
  | conditional
  | test
  | name
  | attribute
  | constant
  deriving DecidableEq, Repr

def Family.label : Family → String
  | .generic => "generic"
  | .statement => "statement"
  | .loop => "loop"
  | .embedding => "embedding"
  | .call => "call"
  | .filter => "filter"
  | .conditional => "conditional"
  | .test => "test"
  | .name => "name"
  | .attribute => "attribute"
  | .constant => "constant"

def Kind.family : Kind → Family
  | .print | .setTag | .ifTag | .doTag | .flushTag | .blockTag | .transTag | .applyTag | .withTag
  | .autoescapeTag | .macroTag | .importTag | .fromTag => .statement
  | .forTag => .loop
  | .sandboxTag | .includeTag | .embedTag | .extendsTag => .embedding
  | .function => .call
  | .filter => .filter
  | .conditional => .conditional
  | .test => .test
  | .name | .assignName => .name
  | .getAttr => .attribute
  | .constant | .text => .constant
  | _ => .generic

/-- Nodes of this kind produce a value. -/
def Kind.isExpression : Kind → Bool
  | .constant | .name | .array | .hash | .filter | .function | .test | .conditional | .binary
  | .unary | .getAttr | .arrow | .spread => true
  | _ => false

/-- The role of a child.  The children of a list are its items. -/
inductive Slot where
  | body
  | elseBody
  | expr
  | node
  | arguments
  | attribute
  | targets
  | values
  | seq
  | keyTarget
  | valueTarget
  | tests
  | left
  | right
  | expr1
  | expr2
  | expr3
  | template
  | context
  | key
  | value
  | params
  | filters
  | plural
  | count
  | item (index : Nat)
  | other (name : String)
  deriving DecidableEq, Repr

namespace Slot

def label : Slot → String
  | .body => "body"
  | .elseBody => "else"
  | .expr => "expr"
  | .node => "node"
  | .arguments => "arguments"
  | .attribute => "attribute"
  | .targets => "targets"
  | .values => "values"
  | .seq => "seq"
  | .keyTarget => "key_target"
  | .valueTarget => "value_target"
  | .tests => "tests"
  | .left => "left"
  | .right => "right"
  | .expr1 => "expr1"
  | .expr2 => "expr2"
  | .expr3 => "expr3"
  | .template => "template"
  | .context => "variables"
  | .key => "key"
  | .value => "value"
  | .params => "params"
  | .filters => "filters"
  | .plural => "plural"
  | .count => "count"
  | .item index => toString index
  | .other s => s

/-- All slots that have a constructor of their own. -/
def named : List Slot :=
  [.body, .elseBody, .expr, .node, .arguments, .attribute, .targets, .values, .seq, .keyTarget,
    .valueTarget, .tests, .left, .right, .expr1, .expr2, .expr3, .template, .context, .key,
    .value, .params, .filters, .plural, .count]

/-- The slot with a given label. -/
def ofLabel (s : String) : Slot :=
  match named.find? (·.label == s), (s : Text).toNat? with
  | some slot, _ => slot
  | none, some n => if toString n == s then .item n else .other s
  | none, none => .other s

end Slot

/-- The name of an attribute. -/
inductive Attr where
  | name
  | value
  | operator
  | callType
  | nullCoalesce
  | only
  | ignoreMissing
  | capture
  | data
  | macroName
  | other (name : String)
  deriving DecidableEq, Repr

namespace Attr

def label : Attr → String
  | .name => "name"
  | .value => "value"
  | .operator => "operator"
  | .callType => "call_type"
  | .nullCoalesce => "null_coalesce"
  | .only => "only"
  | .ignoreMissing => "ignore_missing"
  | .capture => "capture"
  | .data => "data"
  | .macroName => "macro"
  | .other s => s

/-- All attributes that have a constructor of their own. -/
def named : List Attr :=
  [.name, .value, .operator, .callType, .nullCoalesce, .only, .ignoreMissing, .capture, .data,
    .macroName]

/-- The attribute with a given label. -/
def ofLabel (s : String) : Attr := (named.find? (·.label == s)).getD (.other s)

end Attr

/-- The value of an attribute. -/
inductive Value where
  | null
  | bool (b : Bool)
  | text (t : Text)
  | int (n : Int)
  | float (x : Double)
  deriving DecidableEq, Repr

/-- The value as messages show it. -/
def Value.render : Value → Text
  | .null => "null"
  | .bool b => Text.ofBool b
  | .text t => t.quoted
  | .int n => Text.ofInt n
  | .float x => FloatStyle.general.render x

/-- A node of the syntax tree. -/
structure Node where
  kind : Kind
  location : Location
  attrs : List (Attr × Value)
  children : List (Slot × Node)

namespace Node

mutual
/-- Nodes are equal when they have the same parts. -/
def decEq : (m n : Node) → Decidable (m = n)
  | ⟨kind, location, attrs, children⟩, ⟨kind', location', attrs', children'⟩ =>
    if h : kind = kind' ∧ location = location' ∧ attrs = attrs' then
      match decEqAll children children' with
      | isTrue h' => isTrue (by rw [h.1, h.2.1, h.2.2, h'])
      | isFalse h' => isFalse (by simp [h'])
    else isFalse (by simpa using fun a b c _ => h ⟨a, b, c⟩)

def decEqAll : (cs ds : List (Slot × Node)) → Decidable (cs = ds)
  | [], [] => isTrue rfl
  | [], _ :: _ => isFalse (by simp)
  | _ :: _, [] => isFalse (by simp)
  | (slot, c) :: cs, (slot', d) :: ds =>
    if h : slot = slot' then
      match decEq c d with
      | isTrue h' =>
        match decEqAll cs ds with
        | isTrue hs => isTrue (by rw [h, h', hs])
        | isFalse hs => isFalse (by simp [hs])
      | isFalse h' => isFalse (by simp [h'])
    else isFalse (by simp [h])
end

instance : DecidableEq Node := decEq

/-! ## Construction -/

/-- A node without attributes and children. -/
def leaf (kind : Kind) (location : Location) : Node := ⟨kind, location, [], []⟩

/-- The entries with the value of a key replaced in place, or added at the end. -/
def setEntry {α β : Type} [DecidableEq α] (a : α) (b : β) : List (α × β) → List (α × β)
  | [] => [(a, b)]
  | (a', b') :: rest => if a' = a then (a, b) :: rest else (a', b') :: setEntry a b rest

def withAttr (n : Node) (a : Attr) (v : Value) : Node := { n with attrs := setEntry a v n.attrs }

/-- The node with a child in a slot; an absent child changes nothing. -/
def withChild (n : Node) (slot : Slot) : Option Node → Node
  | none => n
  | some child => { n with children := setEntry slot child n.children }

/-- The present nodes, numbered from `index` on. -/
def items (index : Nat) : List (Option Node) → List (Slot × Node)
  | [] => []
  | none :: rest => items index rest
  | some child :: rest => (.item index, child) :: items (index + 1) rest

/-- A node whose children are the present ones among `children`, in order. -/
def list (kind : Kind) (location : Location) (children : List (Option Node)) : Node :=
  ⟨kind, location, [], items 0 children⟩

/-- A node whose children are `children`, in order. -/
def listOf (kind : Kind) (location : Location) (children : List Node) : Node :=
  list kind location (children.map some)

/-! ## Queries -/

def child? (n : Node) (slot : Slot) : Option Node := n.children.lookup slot

def hasChild (n : Node) (slot : Slot) : Bool := (n.child? slot).isSome

def slots (n : Node) : List Slot := n.children.map Prod.fst

def attr? (n : Node) (a : Attr) : Option Value := n.attrs.lookup a

/-- The attribute when it is a text. -/
def textAttr? (n : Node) (a : Attr) : Option Text :=
  match n.attr? a with
  | some (.text t) => some t
  | _ => none

/-- The attribute is set to true. -/
def boolAttr (n : Node) (a : Attr) : Bool := n.attr? a == some (.bool true)

/-- The name, or the empty text for a node without one. -/
def name (n : Node) : Text := (n.textAttr? .name).getD []

def line (n : Node) : Int := n.location.line

/-- The literal value of a constant. -/
def literal? (n : Node) : Option Value := if n.kind = .constant then n.attr? .value else none

def isConstant (n : Node) : Bool := n.literal?.isSome

def isNull (n : Node) : Bool := n.literal? == some .null

def isBool (n : Node) : Bool := n.literal? matches some (.bool _)

def isText (n : Node) : Bool := n.literal? matches some (.text _)

def isNumber (n : Node) : Bool :=
  match n.literal? with
  | some (.int _) | some (.float _) => true
  | _ => false

/-- The word for the type of a literal; empty for any other node. -/
def valueType (n : Node) : Text :=
  match n.literal? with
  | some .null => "null"
  | some (.bool _) => "boolean"
  | some (.text _) => "string"
  | some (.int _) | some (.float _) => "number"
  | none => ""

end Node

end TwigLint
