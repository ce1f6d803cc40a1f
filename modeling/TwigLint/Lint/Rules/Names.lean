import TwigLint.Lint.Rule
import TwigLint.Lint.Rules.Tables

/-! # Rules about names

The rules for filters, functions and variables: each asks its name table first and then looks at the
way the name is used.
-/

namespace TwigLint.Rules

/-- A rule that never breaks off. -/
def rule (name description : Text) (table : Option Policy.Table)
    (check : Context → Node → List Diagnostic) : Rule :=
  ⟨name, description, table, fun ctx node => .ok (check ctx node)⟩

/-- The finding that a table has about a name. -/
def classified (table : Policy.Table) (ctx : Context) (node : Node) (name : Text) :
    List Diagnostic :=
  let c := table.classify name
  if c.isReportable then [ctx.report node c.severity c.message] else []

/-- The argument at a position, without its name. -/
def argument? (node : Node) (index : Nat) : Option Node := do
  let arg ← (← node.child? .arguments).child? (.item index)
  if arg.kind = .namedArgument then arg.child? .value else some arg

def isFilter (name : Text) (n : Node) : Bool := n.kind == .filter && n.name == name

def isTest (name : Text) (n : Node) : Bool := n.kind == .test && n.name == name

/-- Some node around applies the default filter. -/
def underDefault (ctx : Context) : Bool := (ctx.nearest? (isFilter "default")).isSome

/-! ## Filters -/

/-- The filters allowed right before `set_attribute`. -/
def beforeSetAttribute : List Text :=
  ["map", "reverse", "split", "first", "last", "default", "set_attribute"]

def checkAbs (ctx : Context) (node piped : Node) : List Diagnostic :=
  let type := piped.valueType
  if type == "string" || type == "boolean" || type == "null" then
    [ctx.report node .error ("Filter 'abs' can only be applied on number, " ++ type ++ " found!")]
  else []

def checkAddClass (ctx : Context) (node piped : Node) : List Diagnostic :=
  if piped.isText then
    [ctx.report node .error "Filter 'add_class' can not be used on 'string', only 'mapping'!"]
  else []

def checkCleanId (ctx : Context) (node piped : Node) : List Diagnostic :=
  if piped.isConstant && !piped.isText then
    [ctx.report node .error "Filter 'clean_id' can only be applied on string!"]
  else []

def checkDefault (ctx : Context) (node piped : Node) : List Diagnostic :=
  let value :=
    if piped.isBool || piped.isNull then
      [ctx.report node .error "Filter 'default' is not for booleans or null!"]
    else if piped.kind = .name && ctx.inputType piped.name == "boolean" then
      [ctx.report node .error "Don't use 'default' filter on boolean."]
    else []
  let fallback :=
    match argument? node 0 with
    | some arg =>
      if arg.kind = .name && piped.kind = .name && arg.name == piped.name then
        [ctx.report node .warning "Filter 'default' return the value itself!"]
      else if arg.isBool then
        [ctx.report node .warning "Don't use 'default' filter with boolean."]
      else []
    | none => []
  value ++ fallback

def checkSetAttribute (ctx : Context) (node piped : Node) : List Diagnostic :=
  let previous :=
    if piped.kind = .filter && !beforeSetAttribute.contains piped.name then
      [ctx.report node .error
        ("Filter 'set_attribute' do not allow previous filter: '" ++ piped.name ++ "'!")]
    else []
  let value :=
    match argument? node 1 with
    | some arg =>
      if arg.kind = .hash then
        [ctx.report node .error "Filter 'set_attribute' second argument can not be a mapping!"]
      else if arg.isNull then
        [ctx.report node .error "Filter 'set_attribute' second argument can not be null!"]
      else []
    | none => []
  previous ++ value

def checkTrans (ctx : Context) (node piped : Node) : List Diagnostic :=
  if piped.kind = .name || piped.kind = .getAttr then
    [ctx.report node .notice
      "Filter 'trans' or 't' unsafe translation, do not translate variables!"]
  else if piped.literal? == some (.text []) then
    [ctx.report node .notice "Filter 'trans' or 't' is applied on an empty string"]
  else if piped.kind = .array || piped.kind = .hash then
    [ctx.report node .error "Filter 'trans' or 't' can only be applied on string!"]
  else []

/-- The checks of single filters. -/
def filterChecks : List (Text × (Context → Node → Node → List Diagnostic)) :=
  [("abs", checkAbs), ("add_class", checkAddClass), ("clean_id", checkCleanId),
    ("default", checkDefault), ("set_attribute", checkSetAttribute), ("t", checkTrans),
    ("trans", checkTrans)]

def checkFilter (table : Policy.Table) (ctx : Context) (node : Node) : List Diagnostic :=
  if node.name.isEmpty then []
  else
    classified table ctx node node.name ++
      match node.child? .node, filterChecks.lookup node.name with
      | some piped, some check => check ctx node piped
      | _, _ => []

def filterRule (table : Policy.Table) : Rule :=
  rule "filter" "Filter names and filter arguments." table (checkFilter table)

/-! ## Functions -/

def checkFunction (table : Policy.Table) (ctx : Context) (node : Node) : List Diagnostic :=
  if node.name.isEmpty || ctx.isImported node.name then []
  else
    classified table ctx node node.name ++
      if node.name == "random" && !underDefault ctx then
        [ctx.report node .error "Function 'random()' must be used in a 'default()' filter!"]
      else []

def functionRule (table : Policy.Table) : Rule :=
  rule "function" "Function names and placement." table (checkFunction table)

/-! ## Variables -/

/-- Two references to one name at one position are the same reference. -/
def sameReference (a b : Node) : Bool :=
  a.kind == b.kind && a.name == b.name && a.location == b.location

/-- A reference that need not be defined: the operand of `is defined`, the input of a default
filter, or the left side of `??`. -/
def isGuarded (ctx : Context) (node : Node) : Bool :=
  let isOperand (child : Option Node) := child.any (sameReference node)
  ctx.parent?.any (isTest "defined") ||
    ctx.parent?.any (fun p => isFilter "default" p && isOperand (p.child? .node)) ||
    (ctx.nearest? fun n => n.kind == .conditional && n.boolAttr .nullCoalesce).any fun c =>
      isOperand (c.child? .expr2)

/-- The question about an unknown name. -/
def didYouMean (ctx : Context) (name : Text) : Text :=
  match ctx.scope.map (·.didYouMean name) with
  | some hint => if hint.isEmpty then [] else " " ++ hint
  | none => []

def checkName (table : Policy.Table) (ctx : Context) (node : Node) : List Diagnostic :=
  if node.name.isEmpty then []
  else
    classified table ctx node node.name ++
      if ctx.knows node.name || isGuarded ctx node then []
      else
        [ctx.report node .error
          ("Unknown variable: '" ++ node.name ++ "'." ++ didYouMean ctx node.name)]

def nameRule (table : Policy.Table) : Rule :=
  rule "name" "Variable names and unknown variables." table (checkName table)

end TwigLint.Rules
