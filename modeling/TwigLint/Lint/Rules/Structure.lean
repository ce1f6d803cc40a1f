import TwigLint.Lint.Rules.Names

/-! # Rules about constructs

The rules for ternary expressions, tests, tags and attribute access.
-/

namespace TwigLint.Rules

/-! ## Ternary expressions -/

def isTernary (n : Node) : Bool := n.kind == .conditional && !n.boolAttr .nullCoalesce

def isNamed (n : Node) (name : Text) : Bool := n.kind == .name && n.name == name

/-- Ternaries with both branches; those that `??` stands for are not checked. -/
def checkConditional (ctx : Context) (node : Node) : List Diagnostic :=
  match node.child? .expr3 with
  | none => []
  | some expr3 =>
    if node.boolAttr .nullCoalesce then []
    else
      let expr1 := node.child? .expr1
      let expr2 := node.child? .expr2
      (if isTernary expr3 then [ctx.report node .error "No chained ternary"] else []) ++
      (if expr1.any (fun a => a.kind == .name && expr2.any fun b => isNamed b a.name) then
        [ctx.report node .warning
          "Use \x60|default(foo)\x60 filter instead of shorthand ternary \x60?:\x60"]
        else []) ++
      (if expr2.any (fun n => n.literal? == some (.bool true)) &&
          expr3.literal? == some (.bool false) then
        [ctx.report node .notice "Ternary test with boolean result"]
        else [])

def conditionalRule : Rule := rule "conditional" "Ternary expressions." none checkConditional

/-! ## Tests -/

def strictVariables : Text := "Not needed in Drupal because strict_variables=false."

/-- The node around is an operation with the given operator. -/
def parentIs (ctx : Context) (kind : Kind) (operator : Text) : Bool :=
  ctx.parent?.any fun p => p.kind == kind && p.attr? .operator == some (.text operator)

def checkTest (ctx : Context) (node : Node) : List Diagnostic :=
  let name := node.name
  if name == "constant" then [ctx.report node .error sandboxed]
  else if name == "same as" then
    [ctx.report node .error "Equivalent to strict comparison in PHP, often too strict."]
  else if name == "null" || name == "none" then
    if parentIs ctx .unary "not" then
      [ctx.report node .warning
        "Use \x60|default(foo)\x60 filter instead of null ternary \x60??\x60."]
    else [ctx.report node .warning strictVariables]
  else if name == "defined" then
    if underDefault ctx || parentIs ctx .binary "and" then []
    else [ctx.report node .warning strictVariables]
  else if name == "empty" then
    [ctx.report node .warning
      "The exact same as just testing the variable, empty is not needed."]
  else []

def testRule : Rule := rule "test" "Twig tests." none checkTest

/-! ## Tags -/

/-- The tags that the rule for tags looks at. -/
def statementKinds : List Kind :=
  [.sandboxTag, .doTag, .flushTag, .extendsTag, .includeTag, .embedTag]

def hardEmbedding : Text :=
  "Use slots instead of hard embedding a component in the template"

def checkStatement (ctx : Context) (node : Node) : List Diagnostic :=
  match node.kind with
  | .sandboxTag =>
    [ctx.report node .error "Bad architecture for sandbox: Component calling components."]
  | .doTag =>
    if (node.child? .expr).any isTernary then []
    else [ctx.report node .warning "Careful with do usage."]
  | .flushTag => [ctx.report node .error "Cache management outside of Drupal."]
  | .extendsTag => [ctx.report node .error (hardEmbedding ++ ".")]
  | .includeTag => [ctx.report node .warning (hardEmbedding ++ " with 'include'.")]
  | .embedTag => [ctx.report node .warning (hardEmbedding ++ " with 'embed'.")]
  | _ => []

def statementRule : Rule := rule "statement" "Twig tags." none checkStatement

/-! ## Attribute access -/

/-- A method call on a macro library or on the template itself. -/
def isMacroCall (ctx : Context) (node : Node) : Bool :=
  (node.child? .node).any fun n => isNamed n "_self" || (n.kind == .name && ctx.isImported n.name)

def checkAccess (ctx : Context) (node : Node) : List Diagnostic :=
  let callType := (node.textAttr? .callType).getD []
  let key := (node.child? .attribute).bind (·.textAttr? .value)
  let isLiteral := (node.child? .attribute).any (·.isText)
  (if callType == "method" then
    if isMacroCall ctx node then []
    else [ctx.report node .error "Direct method calls are forbidden."]
  else if callType == "array" && isLiteral && key.any (·.startsWith "#") then
    [ctx.report node .warning
      "Keep slots opaque by not manipulating renderables in the template."]
  else []) ++
  (if (node.child? .node).any (isNamed · "loop") && key == some (Text.ofString "parent") then
    [ctx.report node .error "Breaking the flow. Bad performance."]
  else [])

def accessRule : Rule := rule "get_attr" "Attribute and item access." none checkAccess

end TwigLint.Rules
