import TwigLint.Template.Parser.Expression

/-! # Statements

A body is a sequence of text, print statements and tags up to an end tag.  Every tag costs one level
of the depth limit, so `body` recurses on the levels that are left; each tag is a parser over the
parser `expr` for expressions and the parser `sub` for the bodies inside it.
-/

namespace TwigLint

namespace Parser

/-- Names that cannot be bound. -/
def reservedNames : List Text :=
  ["true", "false", "none", "null", "_self", "_context", "_charset"]

/-- The tag whose body is read: its first token and its name. -/
structure Opened where
  token : Token
  tag : Text

/-- Reads a body up to one of the given end tags; the answer has the end tag's name, which has been
consumed. -/
abbrev BodyParser := Option Opened → List Text → Parser (Node × Text)

/-! ## Names that are bound -/

/-- Consumes a name that can be bound. -/
def expectTarget : Parser Token := do
  let tok ← expectName
  if reservedNames.contains tok.value then failAt tok (.reservedTarget tok.value)
  return tok

/-- One more name after a comma. -/
def targetStep (targets : List Node) : Parser (Option (List Node)) := do
  if ← accept .punctuation "," then return some (target (← expectTarget) :: targets)
  return none

/-- One or more names separated by commas. -/
def targetNames : Parser (List Node) := do
  let first ← expectTarget
  return (← extend targetStep [target first]).reverse

/-! ## Tags -/

/-- The body of a tag up to its only end tag, which is consumed. -/
def closedBody (sub : BodyParser) (tok : Token) (tag : Text) : Parser Node := do
  let (body, _) ← sub (some ⟨tok, tag⟩) ["end" ++ tag]
  expectTagEnd
  return body

/-- One more value after a comma. -/
def valueStep (expr : Parser Node) (values : List Node) : Parser (Option (List Node)) := do
  if ← accept .punctuation "," then return some ((← expr) :: values)
  return none

def setTag (expr : Parser Node) (sub : BodyParser) (tok : Token) : Parser Node := do
  let start ← current
  let names ← targetNames
  let targets := Node.listOf .targets start.location names
  if ← accept .punctuation "=" then
    let start ← current
    let first ← expr
    let values := (← extend (valueStep expr) [first]).reverse
    expectTagEnd
    if values.length ≠ names.length then failAt tok .setArity
    return ((Node.leaf .setTag tok.location).withChild .values
      (Node.listOf .arguments start.location values)).withChild .targets targets
  if 1 < names.length then failAt tok .setMultiTarget
  expectTagEnd
  let body ← closedBody sub tok "set"
  return (((Node.leaf .setTag tok.location).withAttr .capture (.bool true)).withChild .values
    body).withChild .targets targets

def forTag (expr : Parser Node) (sub : BodyParser) (tok : Token) : Parser Node := do
  let names ← targetNames
  let _ ← expect .operator ["in"]
  let seq ← expr
  expectTagEnd
  let (body, last) ← sub (some ⟨tok, "for"⟩) ["else", "endfor"]
  let elseBody ←
    if last == "else" then
      expectTagEnd
      pure (some (← sub (some ⟨tok, "for"⟩) ["endfor"]).1)
    else pure none
  expectTagEnd
  let (key, value) ← match names with
    | [value] => pure (none, value)
    | [key, value] => pure (some key, value)
    | _ => failAt tok .loopTargets
  return (((((Node.leaf .forTag tok.location).withChild .seq seq).withChild .keyTarget
    key).withChild .valueTarget value).withChild .body body).withChild .elseBody elseBody

/-- What has been read of a conditional: its branches, last first, its alternative, and the tag that
ended the last body. -/
structure Branches where
  tests : List Node
  alternative : Option Node
  last : Text

/-- A condition with its body. -/
def branch (expr : Parser Node) (sub : BodyParser) (tok : Token) : Parser (Node × Text) := do
  let condition ← expr
  expectTagEnd
  let (body, last) ← sub (some ⟨tok, "if"⟩) ["elseif", "else", "endif"]
  return (pair condition body, last)

def branchStep (expr : Parser Node) (sub : BodyParser) (tok : Token) (b : Branches) :
    Parser (Option Branches) := do
  if b.last == "elseif" then
    let (test, last) ← branch expr sub tok
    return some { b with tests := test :: b.tests, last }
  if b.last == "else" then
    expectTagEnd
    let (body, last) ← sub (some ⟨tok, "if"⟩) ["endif"]
    return some { b with alternative := body, last }
  return none

def ifTag (expr : Parser Node) (sub : BodyParser) (tok : Token) : Parser Node := do
  let (test, last) ← branch expr sub tok
  let b ← extend (branchStep expr sub tok) ⟨[test], none, last⟩
  expectTagEnd
  return ((Node.leaf .ifTag tok.location).withChild .tests
    (Node.listOf .body tok.location b.tests.reverse)).withChild .elseBody b.alternative

/-- The options shared by `include` and `embed`. -/
def inclusion (expr : Parser Node) (kind : Kind) (tok : Token) : Parser Node := do
  let template ← expr
  let ignoreMissing ←
    if ← accept .name "ignore" then
      let _ ← expect .name ["missing"]
      pure true
    else pure false
  let context ← if ← accept .name "with" then pure (some (← expr)) else pure none
  let only ← accept .name "only"
  expectTagEnd
  return ((((Node.leaf kind tok.location).withAttr .ignoreMissing (.bool ignoreMissing)).withAttr
    .only (.bool only)).withChild .template template).withChild .context context

def embedTag (expr : Parser Node) (sub : BodyParser) (tok : Token) : Parser Node := do
  let node ← inclusion expr .embedTag tok
  return node.withChild .body (← closedBody sub tok "embed")

/-- An optional name after an end tag must repeat the name of the tag. -/
def endName (tag name : Text) : Parser Unit := do
  if ← atType .name then
    let found ← next
    if found.value ≠ name then failAt found (.endName tag name found.value)

def blockTag (expr : Parser Node) (sub : BodyParser) (tok : Token) : Parser Node := do
  let name ← expectName
  let body ←
    if ← atType .tagEnd then
      let _ ← next
      let (body, _) ← sub (some ⟨tok, "block"⟩) ["endblock"]
      endName "block" name.value
      expectTagEnd
      pure body
    else
      let value ← expr
      expectTagEnd
      pure (Node.listOf .body tok.location
        [(Node.leaf .print value.location).withChild .expr value])
  return ((Node.leaf .blockTag tok.location).withAttr .name (.text name.value)).withChild .body body

def transTag (expr : Parser Node) (sub : BodyParser) (tok : Token) : Parser Node := do
  let context ← if ← accept .name "with" then pure (some (← expr)) else pure none
  expectTagEnd
  let (body, last) ← sub (some ⟨tok, "trans"⟩) ["plural", "endtrans"]
  let node := ((Node.leaf .transTag tok.location).withChild .context context).withChild .body
    body
  let node ←
    if last == "plural" then
      let count ← expr
      expectTagEnd
      let (plural, _) ← sub (some ⟨tok, "trans"⟩) ["endtrans"]
      pure ((node.withChild .count count).withChild .plural plural)
    else pure node
  expectTagEnd
  return node

/-- One more filter after a bar. -/
def filterStep (expr : Parser Node) (node : Node) : Parser (Option Node) := do
  if ← accept .punctuation "|" then return some (← filterOf expr (some node))
  return none

def applyTag (expr : Parser Node) (sub : BodyParser) (tok : Token) : Parser Node := do
  let first ← filterOf expr none
  let filters ← extend (filterStep expr) first
  expectTagEnd
  let body ← closedBody sub tok "apply"
  return ((Node.leaf .applyTag tok.location).withChild .filters filters).withChild .body body

def withTag (expr : Parser Node) (sub : BodyParser) (tok : Token) : Parser Node := do
  let context ←
    if (← atType .tagEnd) || (← atToken .name "only") then pure none else pure (some (← expr))
  let only ← accept .name "only"
  expectTagEnd
  let body ← closedBody sub tok "with"
  return (((Node.leaf .withTag tok.location).withAttr .only (.bool only)).withChild .context
    context).withChild .body body

/-- A parameter of a macro with its default. -/
def param (expr : Parser Node) : Parser Node := do
  let tok ← expectTarget
  let marked ← if ← accept .punctuation "=" then pure true else accept .punctuation ":"
  let value ← if marked then pure (some (← expr)) else pure none
  return (target tok).withChild .value value

def macroTag (expr : Parser Node) (sub : BodyParser) (tok : Token) : Parser Node := do
  let name ← expectName
  let opening ← expectMark "("
  let params ← commaList ")" .missingArgumentComma (param expr)
  expectTagEnd
  let (body, _) ← sub (some ⟨tok, "macro"⟩) ["endmacro"]
  endName "macro" name.value
  expectTagEnd
  return (((Node.leaf .macroTag tok.location).withAttr .name (.text name.value)).withChild .targets
    (Node.listOf .targets opening.location params)).withChild .body body

def importTag (expr : Parser Node) (tok : Token) : Parser Node := do
  let template ← expr
  let _ ← expect .name ["as"]
  let start ← current
  let names ← targetNames
  expectTagEnd
  if names.length ≠ 1 then failAt tok .importAlias
  return ((Node.leaf .importTag tok.location).withChild .template template).withChild .targets
    (Node.listOf .targets start.location names)

/-- An imported macro, bound under its alias. -/
def importedName : Parser Node := do
  let name ← expectName
  let bound ← if ← accept .name "as" then expectName else pure name
  if reservedNames.contains bound.value then failAt bound (.reservedTarget bound.value)
  return (target bound).withAttr .macroName (.text name.value)

/-- One more imported macro after a comma. -/
def importStep (names : List Node) : Parser (Option (List Node)) := do
  if ← accept .punctuation "," then return some ((← importedName) :: names)
  return none

def fromTag (expr : Parser Node) (tok : Token) : Parser Node := do
  let template ← expr
  let start ← expect .name ["import"]
  let first ← importedName
  let names := (← extend importStep [first]).reverse
  expectTagEnd
  return ((Node.leaf .fromTag tok.location).withChild .template template).withChild .targets
    (Node.listOf .targets start.location names)

def autoescapeTag (expr : Parser Node) (sub : BodyParser) (tok : Token) : Parser Node := do
  let strategy ← if ← atType .tagEnd then pure none else pure (some (← expr))
  expectTagEnd
  let body ← closedBody sub tok "autoescape"
  return ((Node.leaf .autoescapeTag tok.location).withChild .expr strategy).withChild .body body

/-- A tag with one expression and no body. -/
def simpleTag (expr : Parser Node) (kind : Kind) (slot : Slot) (tok : Token) : Parser Node := do
  let value ← expr
  expectTagEnd
  return (Node.leaf kind tok.location).withChild slot value

/-- The tag with the given name; `tok` opens it. -/
def tag (expr : Parser Node) (sub : BodyParser) (tok name : Token) : Parser Node := do
  let word := name.value
  if word == "set" then setTag expr sub tok
  else if word == "for" then forTag expr sub tok
  else if word == "if" then ifTag expr sub tok
  else if word == "do" then simpleTag expr .doTag .expr tok
  else if word == "flush" then
    expectTagEnd
    return .leaf .flushTag tok.location
  else if word == "sandbox" then
    expectTagEnd
    return (Node.leaf .sandboxTag tok.location).withChild .body (← closedBody sub tok "sandbox")
  else if word == "include" then inclusion expr .includeTag tok
  else if word == "embed" then embedTag expr sub tok
  else if word == "extends" then simpleTag expr .extendsTag .template tok
  else if word == "block" then blockTag expr sub tok
  else if word == "trans" then transTag expr sub tok
  else if word == "apply" then applyTag expr sub tok
  else if word == "with" then withTag expr sub tok
  else if word == "macro" then macroTag expr sub tok
  else if word == "import" then importTag expr tok
  else if word == "from" then fromTag expr tok
  else if word == "autoescape" then autoescapeTag expr sub tok
  else if word.startsWith "end" || word == "else" || word == "elseif" || word == "plural" then
    failAt name (.unexpectedTag word)
  else failAt name (.unknownTag word)

/-! ## Bodies -/

/-- What has been read of a body: its nodes, last first, and the end tag that stopped it. -/
structure BodyState where
  nodes : List Node
  last : Option Text

/-- The next statement of a body. -/
def bodyStep (expr : Parser Node) (nested : Token → Token → Parser Node) (opened : Option Opened)
    (ends : List Text) (state : BodyState) : Parser (Option BodyState) := do
  if state.last.isSome then return none
  let tok ← current
  match tok.type with
  | .eof =>
    match opened with
    | some o => failAt o.token (.unclosedBlock o.tag)
    | none => return none
  | .text =>
    let _ ← next
    let node := (Node.leaf .text tok.location).withAttr .data (.text tok.value)
    return some { state with nodes := node :: state.nodes }
  | .printStart =>
    let _ ← next
    let value ← expr
    let _ ← expect .printEnd []
    let node := (Node.leaf .print tok.location).withChild .expr value
    return some { state with nodes := node :: state.nodes }
  | .tagStart =>
    let _ ← next
    if !(← atType .name) then failAt (← current) .missingTagName
    let name ← next
    if ends.contains name.value then return some { state with last := name.value }
    let node ← nested tok name
    return some { state with nodes := node :: state.nodes }
  | _ => failAt tok (.unexpectedToken tok)

/-- A body over the parsers for expressions and for the tags in it. -/
def bodyOver (expr : Parser Node) (nested : Token → Token → Parser Node) : BodyParser :=
  fun opened ends => do
    let start ← current
    let state ← extend (bodyStep expr nested opened ends) ⟨[], none⟩
    return (.listOf .body start.location state.nodes.reverse, state.last.getD [])

/-- A body whose tags may nest `levels` deep; `limit` is the whole depth limit. -/
def body (limit : Nat) : (levels : Nat) → BodyParser
  | 0 => bodyOver (expression limit 0 0) fun tok _ => failAt tok (.depthExceeded limit)
  | levels + 1 =>
    bodyOver (expression limit (levels + 1) 0) (tag (expression limit levels 0) (body limit levels))

/-- A whole template. -/
def template (limit : Nat) : Parser Node := do
  let start ← current
  let (node, _) ← body limit limit none []
  return (Node.leaf .template start.location).withChild .body node

/-- The depth limit of a parser for which none is given. -/
def defaultDepth : Nat := 256

end Parser

/-- Parses a template source in which expressions and tags nest at most `limit` deep. -/
def parseTemplate (limit : Nat) (source : Text) : Except SyntaxError Node := do
  let stream ← TokenStream.ofSource source
  let (node, _) ← (Parser.template limit).run stream
  return node

end TwigLint
