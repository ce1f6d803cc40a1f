import TwigLint.Template.Parser.Basic
import TwigLint.Number.Numeral

/-! # Expressions

Expressions are read by precedence climbing.  Every nested expression costs one level of the depth
limit, so `expression` recurses on the levels that are left, and each construct is a parser over the
parser `sub` for the expressions inside it.
-/

namespace TwigLint.Parser

/-- Binding strength of a binary operator. -/
structure Operator where
  precedence : Nat
  rightAssociative : Bool

def binaryOperators : List (Text × Operator) :=
  [("or", ⟨10, false⟩), ("and", ⟨15, false⟩), ("b-or", ⟨16, false⟩), ("b-xor", ⟨17, false⟩),
    ("b-and", ⟨18, false⟩), ("==", ⟨20, false⟩), ("!=", ⟨20, false⟩), ("<=>", ⟨20, false⟩),
    ("<", ⟨20, false⟩), (">", ⟨20, false⟩), (">=", ⟨20, false⟩), ("<=", ⟨20, false⟩),
    ("not in", ⟨20, false⟩), ("in", ⟨20, false⟩), ("matches", ⟨20, false⟩),
    ("starts with", ⟨20, false⟩), ("ends with", ⟨20, false⟩), ("..", ⟨25, false⟩),
    ("+", ⟨30, false⟩), ("-", ⟨30, false⟩), ("~", ⟨40, false⟩), ("*", ⟨60, false⟩),
    ("/", ⟨60, false⟩), ("//", ⟨60, false⟩), ("%", ⟨60, false⟩), ("is", ⟨100, false⟩),
    ("is not", ⟨100, false⟩), ("**", ⟨200, true⟩), ("??", ⟨300, true⟩)]

def unaryOperators : List (Text × Nat) := [("not", 50), ("-", 500), ("+", 500)]

/-- Second words of the tests whose name has two. -/
def secondWords : List (Text × Text) := [("same", "as"), ("divisible", "by")]

/-- The literals that are written as names. -/
def keywordLiteral? (name : Text) : Option Value :=
  if name == "true" || name == "TRUE" then some (.bool true)
  else if name == "false" || name == "FALSE" then some (.bool false)
  else if name == "null" || name == "NULL" || name == "none" || name == "NONE" then some .null
  else none

/-! ## Leaves -/

def constant (location : Location) (v : Value) : Node :=
  (Node.leaf .constant location).withAttr .value v

/-- A reference to a variable. -/
def reference (tok : Token) : Node :=
  (Node.leaf .name tok.location).withAttr .name (.text tok.value)

/-- A name that is bound. -/
def target (tok : Token) : Node :=
  (Node.leaf .assignName tok.location).withAttr .name (.text tok.value)

/-- An integer when it fits in 64 bits, else the nearest double. -/
def numberValue (t : Text) : Value :=
  match t.toInt64? with
  | some n => .int n
  | none =>
    let whole := t.takeWhile Text.isDigit
    let fraction := (t.dropWhile Text.isDigit).drop 1
    .float (Numeral.ofDigits whole fraction).toDouble

/-- A nonempty text of letters and underscores. -/
def isWord (t : Text) : Bool := !t.isEmpty && t.all fun b => Text.isLetter b || b == '_'

/-- A name, or an operator that looks like one. -/
def isWordToken (tok : Token) : Bool :=
  tok.type == .name || (tok.type == .operator && isWord tok.value)

/-! ## Derived forms -/

def test (location : Location) (name : Text) (node arguments : Node) : Node :=
  (((Node.leaf .test location).withAttr .name (.text name)).withChild .node node).withChild
    .arguments arguments

def unary (location : Location) (operator : Text) (node : Node) : Node :=
  ((Node.leaf .unary location).withAttr .operator (.text operator)).withChild .node node

def binary (location : Location) (operator : Text) (left right : Node) : Node :=
  (((Node.leaf .binary location).withAttr .operator (.text operator)).withChild .left
    left).withChild .right right

def conditional (location : Location) (expr1 expr2 : Node) (expr3 : Option Node) : Node :=
  (((Node.leaf .conditional location).withChild .expr1 expr1).withChild .expr2 expr2).withChild
    .expr3 expr3

/-- `left ?? right` is a conditional on `left` being defined and not null. -/
def nullCoalesce (location : Location) (left right : Node) : Node :=
  let none := Node.list .arguments location []
  let defined := test location "defined" left none
  let notNull := unary location "not" (test location "null" left none)
  (conditional left.location (binary location "and" defined notNull) left right).withAttr
    .nullCoalesce (.bool true)

def filter (location : Location) (name : Text) (node : Option Node) (arguments : Node) : Node :=
  (((Node.leaf .filter location).withAttr .name (.text name)).withChild .node node).withChild
    .arguments arguments

def getAttr (location : Location) (callType : Text) (node key : Node) (arguments : Option Node) :
    Node :=
  ((((Node.leaf .getAttr location).withAttr .callType (.text callType)).withChild .node
    node).withChild .attribute key).withChild .arguments arguments

def pair (key value : Node) : Node :=
  ((Node.leaf .pair key.location).withChild .key key).withChild .value value

/-! ## Constructs -/

/-- One argument of a call, with or without a name. -/
def argument (expr : Parser Node) : Parser Node := do
  let s ← get
  let follow := s.lookAhead
  if s.current.type == .name && (follow.is .punctuation "=" || follow.is .punctuation ":") then
    let name ← next
    let _ ← next
    return ((Node.leaf .namedArgument name.location).withAttr .name (.text name.value)).withChild
      .value (← expr)
  expr

/-- The arguments of a call, in parentheses. -/
def arguments (expr : Parser Node) : Parser Node := do
  let opening ← expectMark "("
  let items ← commaList ")" .missingArgumentComma (argument expr)
  return .listOf .arguments opening.location items

/-- Arguments in parentheses, or none at all. -/
def optionalArguments (expr : Parser Node) (location : Location) : Parser Node := do
  if ← atToken .punctuation "(" then arguments expr else return .list .arguments location []

/-- The rest of a test after its operator. -/
def testOf (expr : Parser Node) (operator : Token) (node : Node) : Parser Node := do
  let first ← expectName
  let name ← match secondWords.lookup first.value with
    | some second =>
      if ← accept .name second then pure (first.value ++ " " ++ second) else pure first.value
    | none => pure first.value
  let args ← optionalArguments expr first.location
  let result := test operator.location name node args
  return if operator.value == "is not" then unary operator.location "not" result else result

/-- An element of an array or hash, which may be spread. -/
def element (expr : Parser Node) : Parser Node := do
  let tok ← current
  if ← accept .operator "..." then
    return (Node.leaf .spread tok.location).withChild .node (← expr)
  expr

def array (expr : Parser Node) (opening : Token) : Parser Node := do
  let items ← commaList "]" .missingArrayComma (element expr)
  return .listOf .array opening.location items

/-- The value behind a hash key. -/
def hashValue (expr : Parser Node) (key : Node) : Parser Node := do
  if !(← accept .punctuation ":") then failAt (← current) .missingHashColon
  return pair key (← expr)

/-- An entry of a hash.  A name alone stands for itself as key and value. -/
def hashEntry (expr : Parser Node) : Parser Node := do
  let tok ← current
  if tok.is .operator "..." then element expr
  else if tok.type == .string then
    let _ ← next
    hashValue expr (constant tok.location (.text tok.value))
  else if tok.type == .number then
    let _ ← next
    hashValue expr (constant tok.location (numberValue tok.value))
  else if isWordToken tok then
    let _ ← next
    let key := constant tok.location (.text tok.value)
    if (← atToken .punctuation ",") || (← atToken .punctuation "\x7d") then
      return pair key (reference tok)
    hashValue expr key
  else if tok.is .punctuation "(" then
    let _ ← next
    let key ← expr
    let _ ← expectMark ")"
    hashValue expr key
  else failAt tok (.badHashKey tok)

def hash (expr : Parser Node) (opening : Token) : Parser Node := do
  let entries ← commaList "\x7d" .missingHashComma (hashEntry expr)
  return .listOf .hash opening.location entries

/-- An attribute after a dot, called when arguments follow. -/
def dotAccess (expr : Parser Node) (dot : Token) (node : Node) : Parser Node := do
  let tok ← next
  let key ←
    if isWordToken tok then pure (constant tok.location (.text tok.value))
    else if tok.type == .number then pure (constant tok.location (numberValue tok.value))
    else failAt tok (.badAttribute tok)
  if ← atToken .punctuation "(" then
    return getAttr dot.location "method" node key (← arguments expr)
  return getAttr dot.location "any" node key none

/-- A subscript, or a slice, which is short for the slice filter. -/
def subscript (expr : Parser Node) (opening : Token) (node : Node) : Parser Node := do
  let location := opening.location
  let key ←
    if ← atToken .punctuation ":" then pure (constant location (.int 0)) else expr
  if ← accept .punctuation ":" then
    let length ←
      if ← atToken .punctuation "]" then pure (constant location .null) else expr
    let _ ← expectMark "]"
    return filter location "slice" node (.listOf .arguments location [key, length])
  let _ ← expectMark "]"
  return getAttr location "array" node key none

/-- A filter name with optional arguments, applied to `node`. -/
def filterOf (expr : Parser Node) (node : Option Node) : Parser Node := do
  let name ← expectName
  let args ← optionalArguments expr name.location
  return filter name.location name.value node args

/-- One attribute access, subscript or filter behind a node. -/
def postfixStep (expr : Parser Node) (node : Node) : Parser (Option Node) := do
  let tok ← current
  if tok.is .punctuation "." then
    let _ ← next
    return some (← dotAccess expr tok node)
  if tok.is .punctuation "[" then
    let _ ← next
    return some (← subscript expr tok node)
  if tok.is .punctuation "|" then
    let _ ← next
    return some (← filterOf expr node)
  return none

/-- All accesses, subscripts and filters behind a node. -/
def postfixes (expr : Parser Node) (node : Node) : Parser Node := extend (postfixStep expr) node

/-- A literal, name, call, array or hash. -/
def primary (expr : Parser Node) : Parser Node := do
  let tok ← next
  let node ← match tok.type with
    | .name =>
      match keywordLiteral? tok.value with
      | some v => pure (constant tok.location v)
      | none =>
        if ← atToken .punctuation "(" then
          pure (((Node.leaf .function tok.location).withAttr .name (.text tok.value)).withChild
            .arguments (← arguments expr))
        else pure (reference tok)
    | .number => pure (constant tok.location (numberValue tok.value))
    | .string => pure (constant tok.location (.text tok.value))
    | .punctuation =>
      if tok.value == "[" then array expr tok
      else if tok.value == "\x7b" then hash expr tok
      else failAt tok (.unexpectedToken tok)
    | _ => failAt tok (.unexpectedToken tok)
  postfixes expr node

/-- An operand: a unary operator with its operand, a parenthesised expression, or a primary. -/
def operand (sub : Nat → Parser Node) : Parser Node := do
  let tok ← current
  match if tok.type == .operator then unaryOperators.lookup tok.value else none with
  | some precedence =>
    let _ ← next
    let node ← sub precedence
    postfixes (sub 0) (unary tok.location tok.value node)
  | none =>
    if ← accept .punctuation "(" then
      let node ← sub 0
      if !(← accept .punctuation ")") then failAt (← current) .unclosedParenthesis
      postfixes (sub 0) node
    else primary (sub 0)

/-- One binary operator that binds at least as strongly as `precedence`, with its right operand. -/
def binaryStep (sub : Nat → Parser Node) (precedence : Nat) (left : Node) :
    Parser (Option Node) := do
  let tok ← current
  match if tok.type == .operator then binaryOperators.lookup tok.value else none with
  | none => return none
  | some operator =>
    if operator.precedence < precedence then return none
    let _ ← next
    if tok.value == "is" || tok.value == "is not" then return some (← testOf (sub 0) tok left)
    let right ← sub (if operator.rightAssociative then operator.precedence
      else operator.precedence + 1)
    return some (if tok.value == "??" then nullCoalesce tok.location left right
      else binary tok.location tok.value left right)

/-- One ternary operator behind a condition. -/
def conditionalStep (expr : Parser Node) (condition : Node) : Parser (Option Node) := do
  if !(← accept .punctuation "?") then return none
  if ← accept .punctuation ":" then
    return some (conditional condition.location condition condition (← expr))
  let consequent ← expr
  if ← accept .punctuation ":" then
    return some (conditional condition.location condition consequent (← expr))
  return some (conditional condition.location condition consequent none)

/-! ## Arrow functions -/

/-- Names separated by commas, a closing parenthesis, and an arrow. -/
def paramsThenArrow : List Token → Bool
  | name :: mark :: rest =>
    name.type == .name &&
      (if mark.is .punctuation ")" then rest.head?.any (·.type == .arrow)
        else mark.is .punctuation "," && paramsThenArrow rest)
  | _ => false

/-- An arrow function starts here. -/
def arrowAhead (s : TokenStream) : Bool :=
  if s.current.type == .name then s.lookAhead.type == .arrow
  else s.current.is .punctuation "(" && paramsThenArrow (s.tokens.drop 1)

/-- One parameter in parentheses. -/
def paramStep (params : List Node) : Parser (Option (List Node)) := do
  if ← accept .punctuation ")" then return none
  let _ ← accept .punctuation ","
  let tok ← expectName
  return some (target tok :: params)

def arrowParams : Parser (List Node) := do
  if ← atType .name then return [target (← next)]
  let _ ← expectMark "("
  return (← extend paramStep []).reverse

def arrow (expr : Parser Node) : Parser Node := do
  let start ← current
  let params ← arrowParams
  let _ ← expect .arrow []
  let body ← expr
  return ((Node.leaf .arrow start.location).withChild .params
    (Node.listOf .targets start.location params)).withChild .expr body

/-! ## Expressions -/

/-- An expression of operators at least as strong as `precedence`, over the parser for the
expressions inside it. -/
def expressionOver (sub : Nat → Parser Node) (precedence : Nat) : Parser Node := do
  if arrowAhead (← get) then arrow (sub 0)
  else
    let first ← operand sub
    let node ← extend (binaryStep sub precedence) first
    if precedence = 0 then extend (conditionalStep (sub 0)) node else return node

/-- An expression that may nest `levels` deep; `limit` is the whole depth limit. -/
def expression (limit : Nat) : (levels precedence : Nat) → Parser Node
  | 0, _ => do failAt (← current) (.depthExceeded limit)
  | levels + 1, precedence => expressionOver (expression limit levels) precedence

end TwigLint.Parser
