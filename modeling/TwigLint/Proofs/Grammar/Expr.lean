import TwigLint.Proofs.Grammar.Phrase
import TwigLint.Template.Parser.Expression

/-! # The grammar of expressions

Expressions as they are written, each with its phrase: the tokens in which every compound
subexpression stands in parentheses, and the tree these tokens mean.  The tree has fewer kinds of
nodes than there are ways to write an expression: `a ?: b` repeats its condition, `a ?? b` is a
conditional on `a` being defined and not null, a slice is a filter, and `is not` is a negated test.
-/

namespace TwigLint.Grammar

open Phrase

/-! ## Words -/

/-- The constants that are written as names. -/
inductive Keyword where
  | true
  | false
  | null
  | none
  deriving DecidableEq, Repr

namespace Keyword

def value : Keyword → Value
  | true => .bool Bool.true
  | false => .bool Bool.false
  | null => .null
  | none => .null

/-- The word for a constant, in lower or in upper case. -/
def text : Keyword → (upper : Bool) → Text
  | true, upper => if upper then "TRUE" else "true"
  | false, upper => if upper then "FALSE" else "false"
  | null, upper => if upper then "NULL" else "null"
  | none, upper => if upper then "NONE" else "none"

end Keyword

/-- A name that is none of the constants. -/
structure Identifier where
  text : Text
  notKeyword : ∀ (k : Keyword) (upper : Bool), text ≠ k.text upper

/-- A word behind a dot or in front of a colon: a name, or an operator spelled like one. -/
inductive Label where
  | name (text : Text)
  | operator (text : Text) (isWord : Parser.isWord text = true)

/-- A number that a 64-bit integer can hold. -/
abbrev IntLiteral := Fin 0x8000000000000000

/-- A unary operator of the table. -/
structure UnaryOperator where
  text : Text
  precedence : Nat
  listed : Parser.unaryOperators.lookup text = some precedence

/-- A binary operator of the table, tests and `??` apart. -/
structure BinaryOperator where
  text : Text
  strength : Parser.Operator
  listed : Parser.binaryOperators.lookup text = some strength
  plain : text ≠ "is" ∧ text ≠ "is not" ∧ text ≠ "??"

/-- The name of a test. -/
inductive TestName where
  | single (text : Text)
  | sameAs
  | divisibleBy

/-- The parameters of an arrow function: one name, or names in parentheses. -/
inductive Params where
  | bare (name : Text)
  | listed (first : Text) (rest : List Text)

/-! ## Expressions -/

mutual

/-- An expression. -/
inductive Expr where
  | text (t : Text)
  | int (n : IntLiteral)
  | keyword (k : Keyword) (upper : Bool)
  | name (n : Identifier)
  | array (items : List Element)
  | hash (entries : List Entry)
  | call (function : Identifier) (args : List Arg)
  | filter (e : Expr) (name : Text) (args : Option (List Arg))
  | test (e : Expr) (negated : Bool) (name : TestName) (args : Option (List Arg))
  | member (e : Expr) (key : Label)
  | index (e : Expr) (key : IntLiteral)
  | method (e : Expr) (key : Label) (args : List Arg)
  | subscript (e key : Expr)
  | slice (e : Expr) (start length : Option Expr)
  | unary (op : UnaryOperator) (e : Expr)
  | binary (op : BinaryOperator) (left right : Expr)
  /-- `condition ? consequent : alternative` -/
  | ternary (condition consequent alternative : Expr)
  /-- `condition ? consequent` -/
  | ternaryThen (condition consequent : Expr)
  /-- `condition ?: alternative` -/
  | ternaryElse (condition alternative : Expr)
  /-- `left ?? right` -/
  | coalesce (left right : Expr)
  | arrow (params : Params) (body : Expr)

/-- An element of an array. -/
inductive Element where
  | plain (e : Expr)
  | spread (e : Expr)

/-- An entry of a hash; the short form is a name that is key and value at once. -/
inductive Entry where
  | spread (e : Expr)
  | short (n : Identifier)
  | text (key : Text) (value : Expr)
  | int (key : IntLiteral) (value : Expr)
  | label (key : Label) (value : Expr)
  | computed (key value : Expr)

/-- An argument of a call; the mark behind its name is `:` or `=`. -/
inductive Arg where
  | positional (e : Expr)
  | named (name : Text) (colon : Bool) (e : Expr)

end

/-- A constant or a name. -/
def Expr.isAtom : Expr → Bool
  | .text _ | .int _ | .keyword _ _ | .name _ => true
  | _ => false

/-! ## Phrases -/

/-- A constant of the tree. -/
def literal (l : Location) (v : Value) : Node := ⟨.constant, l, [(.value, v)], []⟩

/-- The phrase `m` of `e` as a part of another expression: in parentheses if `e` is compound. -/
def Expr.grouped (e : Expr) (m : Phrase Node) : Phrase Node :=
  if e.isAtom then m else parens m

/-- Phrases with commas between them, in brackets. -/
def bracketed (opening closing : String) (kind : Kind) (ms : List (Phrase Node)) : Phrase Node := do
  let l ← mark opening
  let ns ← commas ms
  let _ ← mark closing
  return .listOf kind l ns

def Label.phrase : Label → Phrase Node
  | .name t => do return literal (← word .name t) (.text t)
  | .operator t _ => do return literal (← word .operator t) (.text t)

def TestName.phrase : TestName → Phrase Location
  | .single t => word .name t
  | .sameAs => do
    let l ← word .name "same"
    let _ ← word .name "as"
    return l
  | .divisibleBy => do
    let l ← word .name "divisible"
    let _ ← word .name "by"
    return l

def TestName.text : TestName → Text
  | .single t => t
  | .sameAs => "same as"
  | .divisibleBy => "divisible by"

/-- A name that is bound. -/
def bound (name : Text) : Phrase Node := do
  let l ← word .name name
  return ⟨.assignName, l, [(.name, .text name)], []⟩

def Params.phrase : Params → Phrase (List Node)
  | .bare name => do return [← bound name]
  | .listed first rest => do
    let _ ← mark "("
    let ns ← commas ((first :: rest).map bound)
    let _ ← mark ")"
    return ns

mutual

/-- The tokens of an expression and its tree. -/
def Expr.phrase : Expr → Phrase Node
  | .text t => do return literal (← word .string t) (.text t)
  | .int n => do return literal (← word .number (Text.ofNat n)) (.int n)
  | .keyword k upper => do return literal (← word .name (k.text upper)) k.value
  | .name n => do return ⟨.name, ← word .name n.text, [(.name, .text n.text)], []⟩
  | .array items => bracketed "[" "]" .array (Element.phrases items)
  | .hash entries => bracketed "\x7b" "\x7d" .hash (Entry.phrases entries)
  | .call f args => do
    let l ← word .name f.text
    let a ← bracketed "(" ")" .arguments (Arg.phrases args)
    return ⟨.function, l, [(.name, .text f.text)], [(.arguments, a)]⟩
  | .filter e name args => do
    let n ← e.grouped e.phrase
    let _ ← mark "|"
    let l ← word .name name
    let a ← Arg.optional l args
    return ⟨.filter, l, [(.name, .text name)], [(.node, n), (.arguments, a)]⟩
  | .test e negated name args => do
    let n ← e.grouped e.phrase
    let l ← word .operator (if negated then "is not" else "is")
    let start ← name.phrase
    let a ← Arg.optional start args
    let t : Node := ⟨.test, l, [(.name, .text name.text)], [(.node, n), (.arguments, a)]⟩
    return if negated then ⟨.unary, l, [(.operator, .text "not")], [(.node, t)]⟩ else t
  | .member e key => do
    let n ← e.grouped e.phrase
    let l ← mark "."
    let k ← key.phrase
    return ⟨.getAttr, l, [(.callType, .text "any")], [(.node, n), (.attribute, k)]⟩
  | .index e key => do
    let n ← e.grouped e.phrase
    let l ← mark "."
    let k ← word .number (Text.ofNat key)
    return ⟨.getAttr, l, [(.callType, .text "any")],
      [(.node, n), (.attribute, literal k (.int key))]⟩
  | .method e key args => do
    let n ← e.grouped e.phrase
    let l ← mark "."
    let k ← key.phrase
    let a ← bracketed "(" ")" .arguments (Arg.phrases args)
    return ⟨.getAttr, l, [(.callType, .text "method")],
      [(.node, n), (.attribute, k), (.arguments, a)]⟩
  | .subscript e key => do
    let n ← e.grouped e.phrase
    let l ← mark "["
    let k ← key.grouped key.phrase
    let _ ← mark "]"
    return ⟨.getAttr, l, [(.callType, .text "array")], [(.node, n), (.attribute, k)]⟩
  | .slice e start length => do
    let n ← e.grouped e.phrase
    let l ← mark "["
    let k ← Expr.orElse (literal l (.int 0)) start
    let _ ← mark ":"
    let m ← Expr.orElse (literal l .null) length
    let _ ← mark "]"
    return ⟨.filter, l, [(.name, .text "slice")],
      [(.node, n), (.arguments, .listOf .arguments l [k, m])]⟩
  | .unary op e => do
    let l ← word .operator op.text
    let n ← e.grouped e.phrase
    return ⟨.unary, l, [(.operator, .text op.text)], [(.node, n)]⟩
  | .binary op left right => do
    let m ← left.grouped left.phrase
    let l ← word .operator op.text
    let n ← right.grouped right.phrase
    return ⟨.binary, l, [(.operator, .text op.text)], [(.left, m), (.right, n)]⟩
  | .ternary condition consequent alternative => do
    let c ← condition.grouped condition.phrase
    let _ ← mark "?"
    let m ← consequent.grouped consequent.phrase
    let _ ← mark ":"
    let n ← alternative.grouped alternative.phrase
    return ⟨.conditional, c.location, [], [(.expr1, c), (.expr2, m), (.expr3, n)]⟩
  | .ternaryThen condition consequent => do
    let c ← condition.grouped condition.phrase
    let _ ← mark "?"
    let m ← consequent.grouped consequent.phrase
    return ⟨.conditional, c.location, [], [(.expr1, c), (.expr2, m)]⟩
  | .ternaryElse condition alternative => do
    let c ← condition.grouped condition.phrase
    let _ ← mark "?"
    let _ ← mark ":"
    let n ← alternative.grouped alternative.phrase
    return ⟨.conditional, c.location, [], [(.expr1, c), (.expr2, c), (.expr3, n)]⟩
  | .coalesce left right => do
    let m ← left.grouped left.phrase
    let l ← word .operator "??"
    let n ← right.grouped right.phrase
    let noArgs : Node := .listOf .arguments l []
    let isDefined : Node :=
      ⟨.test, l, [(.name, .text "defined")], [(.node, m), (.arguments, noArgs)]⟩
    let isNull : Node := ⟨.test, l, [(.name, .text "null")], [(.node, m), (.arguments, noArgs)]⟩
    let notNull : Node := ⟨.unary, l, [(.operator, .text "not")], [(.node, isNull)]⟩
    let condition : Node :=
      ⟨.binary, l, [(.operator, .text "and")], [(.left, isDefined), (.right, notNull)]⟩
    return ⟨.conditional, m.location, [(.nullCoalesce, .bool true)],
      [(.expr1, condition), (.expr2, m), (.expr3, n)]⟩
  | .arrow params body => do
    let l ← here
    let ps ← params.phrase
    let _ ← word .arrow "=>"
    let n ← body.grouped body.phrase
    return ⟨.arrow, l, [], [(.params, .listOf .targets l ps), (.expr, n)]⟩

/-- An expression that may be left out. -/
def Expr.orElse (default : Node) : Option Expr → Phrase Node
  | none => pure default
  | some e => e.grouped e.phrase

def Element.phrase : Element → Phrase Node
  | .plain e => e.grouped e.phrase
  | .spread e => do
    let l ← word .operator "..."
    let n ← e.grouped e.phrase
    return ⟨.spread, l, [], [(.node, n)]⟩

def Element.phrases : List Element → List (Phrase Node)
  | [] => []
  | x :: xs => x.phrase :: Element.phrases xs

def Entry.phrase : Entry → Phrase Node
  | .spread e => do
    let l ← word .operator "..."
    let n ← e.grouped e.phrase
    return ⟨.spread, l, [], [(.node, n)]⟩
  | .short n => do
    let l ← word .name n.text
    let value : Node := ⟨.name, l, [(.name, .text n.text)], []⟩
    return ⟨.pair, l, [], [(.key, literal l (.text n.text)), (.value, value)]⟩
  | .text key value => do
    let l ← word .string key
    let _ ← mark ":"
    let n ← value.grouped value.phrase
    return ⟨.pair, l, [], [(.key, literal l (.text key)), (.value, n)]⟩
  | .int key value => do
    let l ← word .number (Text.ofNat key)
    let _ ← mark ":"
    let n ← value.grouped value.phrase
    return ⟨.pair, l, [], [(.key, literal l (.int key)), (.value, n)]⟩
  | .label key value => do
    let k ← key.phrase
    let _ ← mark ":"
    let n ← value.grouped value.phrase
    return ⟨.pair, k.location, [], [(.key, k), (.value, n)]⟩
  | .computed key value => do
    let _ ← mark "("
    let k ← key.grouped key.phrase
    let _ ← mark ")"
    let _ ← mark ":"
    let n ← value.grouped value.phrase
    return ⟨.pair, k.location, [], [(.key, k), (.value, n)]⟩

def Entry.phrases : List Entry → List (Phrase Node)
  | [] => []
  | x :: xs => x.phrase :: Entry.phrases xs

def Arg.phrase : Arg → Phrase Node
  | .positional e => e.grouped e.phrase
  | .named name colon e => do
    let l ← word .name name
    let _ ← mark (if colon then ":" else "=")
    let n ← e.grouped e.phrase
    return ⟨.namedArgument, l, [(.name, .text name)], [(.value, n)]⟩

def Arg.phrases : List Arg → List (Phrase Node)
  | [] => []
  | x :: xs => x.phrase :: Arg.phrases xs

/-- Arguments in parentheses, or nothing, which means no arguments at `l`. -/
def Arg.optional (l : Location) : Option (List Arg) → Phrase Node
  | none => pure (.listOf .arguments l [])
  | some args => bracketed "(" ")" .arguments (Arg.phrases args)

end

attribute [simp] Expr.phrase Expr.orElse Element.phrase Entry.phrase Arg.phrase Arg.optional

/-- An expression as a part of another one. -/
def Expr.operand (e : Expr) : Phrase Node := e.grouped e.phrase

/-! ## Nesting -/

/-- The levels that a part with `levels` levels of its own takes. -/
def Expr.groupedDepth (e : Expr) (levels : Nat) : Nat := if e.isAtom then 1 else levels + 1

mutual

/-- The levels of nesting in the tokens of an expression. -/
def Expr.depth : Expr → Nat
  | .text _ | .int _ | .keyword _ _ | .name _ => 1
  | .array items => Element.depths items + 1
  | .hash entries => Entry.depths entries + 1
  | .call _ args => Arg.depths args + 1
  | .filter e _ args => max (e.groupedDepth e.depth) (Arg.optionalDepth args) + 1
  | .test e _ _ args => max (e.groupedDepth e.depth) (Arg.optionalDepth args) + 1
  | .member e _ => e.groupedDepth e.depth + 1
  | .index e _ => e.groupedDepth e.depth + 1
  | .method e _ args => max (e.groupedDepth e.depth) (Arg.depths args) + 1
  | .subscript e key => max (e.groupedDepth e.depth) (key.groupedDepth key.depth) + 1
  | .slice e start length =>
    max (e.groupedDepth e.depth) (max (Expr.optionalDepth start) (Expr.optionalDepth length)) + 1
  | .unary _ e => e.groupedDepth e.depth + 1
  | .binary _ left right =>
    max (left.groupedDepth left.depth) (right.groupedDepth right.depth) + 1
  | .ternary condition consequent alternative =>
    max (condition.groupedDepth condition.depth)
      (max (consequent.groupedDepth consequent.depth)
        (alternative.groupedDepth alternative.depth)) + 1
  | .ternaryThen condition consequent =>
    max (condition.groupedDepth condition.depth) (consequent.groupedDepth consequent.depth) + 1
  | .ternaryElse condition alternative =>
    max (condition.groupedDepth condition.depth) (alternative.groupedDepth alternative.depth) + 1
  | .coalesce left right =>
    max (left.groupedDepth left.depth) (right.groupedDepth right.depth) + 1
  | .arrow _ body => body.groupedDepth body.depth + 1

def Expr.optionalDepth : Option Expr → Nat
  | none => 0
  | some e => e.groupedDepth e.depth

def Element.depth : Element → Nat
  | .plain e => e.groupedDepth e.depth
  | .spread e => e.groupedDepth e.depth

def Element.depths : List Element → Nat
  | [] => 0
  | x :: xs => max x.depth (Element.depths xs)

def Entry.depth : Entry → Nat
  | .spread e => e.groupedDepth e.depth
  | .short _ => 0
  | .text _ value => value.groupedDepth value.depth
  | .int _ value => value.groupedDepth value.depth
  | .label _ value => value.groupedDepth value.depth
  | .computed key value => max (key.groupedDepth key.depth) (value.groupedDepth value.depth)

def Entry.depths : List Entry → Nat
  | [] => 0
  | x :: xs => max x.depth (Entry.depths xs)

def Arg.depth : Arg → Nat
  | .positional e => e.groupedDepth e.depth
  | .named _ _ e => e.groupedDepth e.depth

def Arg.depths : List Arg → Nat
  | [] => 0
  | x :: xs => max x.depth (Arg.depths xs)

def Arg.optionalDepth : Option (List Arg) → Nat
  | none => 0
  | some args => Arg.depths args

end

end TwigLint.Grammar
