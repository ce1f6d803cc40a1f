import TwigLint.Proofs.Grammar.Expr
import TwigLint.Proofs.Grammar.Body

/-! # The grammar of statements

Statements as they are written, each with its phrase.  The expressions of tags and print statements
stand in parentheses, bodies are nested to any depth, and an optional part that is left out has no
slot in the tree.
-/

namespace TwigLint.Grammar

open Phrase

/-! ## Parts of tags -/

/-- A name that can be bound. -/
structure Target where
  text : Text
  notReserved : text ∉ Parser.reservedNames

/-- What `include` and `embed` have in common. -/
structure Inclusion where
  template : Expr
  ignoreMissing : Bool
  context : Option Expr
  only : Bool

/-- A filter behind `apply` or a bar. -/
structure Filter where
  name : Text
  args : Option (List Arg)

/-- A parameter of a macro; its default stands behind `:` or `=`. -/
inductive Param where
  | plain (name : Target)
  | optional (name : Target) (colon : Bool) (default : Expr)

/-- A macro that is imported under its own name or another one. -/
inductive Imported where
  | plain (name : Target)
  | renamed (name : Text) (target : Target)

/-! ## Statements -/

mutual

/-- A statement. -/
inductive Stmt where
  | text (t : Text)
  | print (e : Expr)
  | setTag (first : Target × Expr) (rest : List (Target × Expr))
  | captureTag (name : Target) (body : List Stmt)
  | forTag (key : Option Target) (value : Target) (seq : Expr) (body : List Stmt)
    (otherwise : Option (List Stmt))
  | ifTag (condition : Expr) (body : List Stmt) (rest : Alternatives)
  | doTag (e : Expr)
  | flushTag
  | sandboxTag (body : List Stmt)
  | includeTag (inclusion : Inclusion)
  | embedTag (inclusion : Inclusion) (body : List Stmt)
  | extendsTag (e : Expr)
  /-- A block; its end tag may repeat its name. -/
  | blockTag (name : Text) (body : List Stmt) (endName : Bool)
  /-- A block of one expression, without an end tag. -/
  | shortBlockTag (name : Text) (e : Expr)
  | transTag (context : Option Expr) (body : List Stmt)
  | pluralTag (context : Option Expr) (body : List Stmt) (count : Expr) (plural : List Stmt)
  | applyTag (first : Filter) (rest : List Filter) (body : List Stmt)
  | withTag (context : Option Expr) (only : Bool) (body : List Stmt)
  /-- A macro; its end tag may repeat its name. -/
  | macroTag (name : Text) (params : List Param) (body : List Stmt) (endName : Bool)
  | importTag (e : Expr) (target : Target)
  | fromTag (e : Expr) (first : Imported) (rest : List Imported)
  | autoescapeTag (strategy : Option Expr) (body : List Stmt)

/-- What stands behind the first branch of a conditional. -/
inductive Alternatives where
  | done
  | elseTag (body : List Stmt)
  | elseifTag (condition : Expr) (body : List Stmt) (rest : Alternatives)

end

/-! ## Phrases -/

/-- An expression in parentheses. -/
def enclosed (e : Expr) : Phrase Node := parens e.phrase

/-- The end of a tag. -/
def tagEnd : Phrase Location := word .tagEnd "%\x7d"

/-- A tag; its position is that of its opening mark. -/
def tagged (name : String) (rest : Location → Phrase Node) : Phrase Node := do
  let l ← word .tagStart "\x7b%"
  let _ ← word .name name
  rest l

/-- A child that may be absent. -/
def slot (s : Slot) : Option Node → List (Slot × Node)
  | none => []
  | some n => [(s, n)]

/-- A word that stands there if `b` holds. -/
def wordIf (b : Bool) (w : Text) : Phrase Unit := if b then (do let _ ← word .name w) else pure ()

/-- An expression that may be left out. -/
def enclosed? : Option Expr → Phrase (Option Node)
  | none => pure none
  | some e => do return some (← enclosed e)

/-- Variables behind `with`, or nothing. -/
def context? : Option Expr → Phrase (Option Node)
  | none => pure none
  | some e => do
    let _ ← word .name "with"
    return some (← enclosed e)

/-- The first name of a loop over keys and values, with the comma behind it. -/
def key? : Option Target → Phrase (Option Node)
  | none => pure none
  | some k => do
    let n ← bound k.text
    let _ ← mark ","
    return some n

/-- Statements with the whole end tag behind them. -/
def block (last : Text) (ms : List (Phrase Node)) : Phrase Node := do
  let n ← closed last ms
  let _ ← tagEnd
  return n

/-- Statements with an end tag that may repeat the name of the tag. -/
def namedBlock (last name : Text) (endName : Bool) (ms : List (Phrase Node)) : Phrase Node := do
  let n ← closed last ms
  let _ ← wordIf endName name
  let _ ← tagEnd
  return n

def Inclusion.phrase (kind : Kind) (l : Location) (i : Inclusion) : Phrase Node := do
  let t ← enclosed i.template
  let _ ← wordIf i.ignoreMissing "ignore"
  let _ ← wordIf i.ignoreMissing "missing"
  let c ← context? i.context
  let _ ← wordIf i.only "only"
  let _ ← tagEnd
  return ⟨kind, l, [(.ignoreMissing, .bool i.ignoreMissing), (.only, .bool i.only)],
    (.template, t) :: slot .context c⟩

/-- A filter applied to `n`. -/
def Filter.phrase (n : Option Node) (f : Filter) : Phrase Node := do
  let l ← word .name f.name
  let a ← Arg.optional l f.args
  return ⟨.filter, l, [(.name, .text f.name)], slot .node n ++ [(.arguments, a)]⟩

/-- Filters behind bars, each applied to the ones before it. -/
def Filter.chain : List Filter → Node → Phrase Node
  | [], n => pure n
  | f :: fs, n => do
    let _ ← mark "|"
    let m ← f.phrase (some n)
    chain fs m

def Param.phrase : Param → Phrase Node
  | .plain name => bound name.text
  | .optional name colon default => do
    let l ← word .name name.text
    let _ ← mark (if colon then ":" else "=")
    let n ← enclosed default
    return ⟨.assignName, l, [(.name, .text name.text)], [(.value, n)]⟩

def Imported.phrase : Imported → Phrase Node
  | .plain name => do
    let l ← word .name name.text
    return ⟨.assignName, l, [(.name, .text name.text), (.macroName, .text name.text)], []⟩
  | .renamed name target => do
    let _ ← word .name name
    let _ ← word .name "as"
    let l ← word .name target.text
    return ⟨.assignName, l, [(.name, .text target.text), (.macroName, .text name)], []⟩

/-- The name of the tag that ends the branch before. -/
def Alternatives.last : Alternatives → Text
  | .done => "endif"
  | .elseTag _ => "else"
  | .elseifTag _ _ _ => "elseif"

/-- A condition with the statements behind it, up to the name of the tag that ends them. -/
def guarded (condition : Expr) (last : Text) (ms : List (Phrase Node)) : Phrase Node := do
  let c ← enclosed condition
  let _ ← tagEnd
  let n ← closed last ms
  return ⟨.pair, c.location, [], [(.key, c), (.value, n)]⟩

/-- The body of a loop and its alternative. -/
def loopBody (body : List (Phrase Node)) : Option (List (Phrase Node)) → Phrase (Node × Option Node)
  | none => do return (← block "endfor" body, none)
  | some otherwise => do
    let n ← block "else" body
    return (n, some (← block "endfor" otherwise))

mutual

/-- The tokens of a statement and its tree. -/
def Stmt.phrase : Stmt → Phrase Node
  | .text t => do return ⟨.text, ← word .text t, [(.data, .text t)], []⟩
  | .print e => printed (enclosed e)
  | .setTag first rest => tagged "set" fun l => do
    let start ← here
    let ts ← commas ((first :: rest).map fun a => bound a.1.text)
    let _ ← mark "="
    let start' ← here
    let vs ← commas ((first :: rest).map fun a => enclosed a.2)
    let _ ← tagEnd
    return ⟨.setTag, l, [],
      [(.values, .listOf .arguments start' vs), (.targets, .listOf .targets start ts)]⟩
  | .captureTag name body => tagged "set" fun l => do
    let start ← here
    let t ← bound name.text
    let _ ← tagEnd
    let n ← block "endset" (Stmt.phrases body)
    return ⟨.setTag, l, [(.capture, .bool true)],
      [(.values, n), (.targets, .listOf .targets start [t])]⟩
  | .forTag key value seq body otherwise => tagged "for" fun l => do
    let k ← key? key
    let v ← bound value.text
    let _ ← word .operator "in"
    let s ← enclosed seq
    let _ ← tagEnd
    let n ← loopBody (Stmt.phrases body) (Stmt.phrases? otherwise)
    return ⟨.forTag, l, [],
      (.seq, s) :: slot .keyTarget k ++ (.valueTarget, v) :: (.body, n.1) :: slot .elseBody n.2⟩
  | .ifTag condition body rest => tagged "if" fun l => do
    let n ← guarded condition rest.last (Stmt.phrases body)
    let r ← rest.phrase
    let _ ← tagEnd
    return ⟨.ifTag, l, [], (.tests, .listOf .body l (n :: r.1)) :: slot .elseBody r.2⟩
  | .doTag e => tagged "do" fun l => do
    let n ← enclosed e
    let _ ← tagEnd
    return ⟨.doTag, l, [], [(.expr, n)]⟩
  | .flushTag => tagged "flush" fun l => do
    let _ ← tagEnd
    return ⟨.flushTag, l, [], []⟩
  | .sandboxTag body => tagged "sandbox" fun l => do
    let _ ← tagEnd
    let n ← block "endsandbox" (Stmt.phrases body)
    return ⟨.sandboxTag, l, [], [(.body, n)]⟩
  | .includeTag inclusion => tagged "include" fun l => inclusion.phrase .includeTag l
  | .embedTag inclusion body => tagged "embed" fun l => do
    let i ← inclusion.phrase .embedTag l
    let n ← block "endembed" (Stmt.phrases body)
    return { i with children := i.children ++ [(.body, n)] }
  | .extendsTag e => tagged "extends" fun l => do
    let n ← enclosed e
    let _ ← tagEnd
    return ⟨.extendsTag, l, [], [(.template, n)]⟩
  | .blockTag name body endName => tagged "block" fun l => do
    let _ ← word .name name
    let _ ← tagEnd
    let n ← namedBlock "endblock" name endName (Stmt.phrases body)
    return ⟨.blockTag, l, [(.name, .text name)], [(.body, n)]⟩
  | .shortBlockTag name e => tagged "block" fun l => do
    let _ ← word .name name
    let n ← enclosed e
    let _ ← tagEnd
    return ⟨.blockTag, l, [(.name, .text name)],
      [(.body, .listOf .body l [⟨.print, n.location, [], [(.expr, n)]⟩])]⟩
  | .transTag context body => tagged "trans" fun l => do
    let c ← context? context
    let _ ← tagEnd
    let n ← block "endtrans" (Stmt.phrases body)
    return ⟨.transTag, l, [], slot .context c ++ [(.body, n)]⟩
  | .pluralTag context body count plural => tagged "trans" fun l => do
    let c ← context? context
    let _ ← tagEnd
    let n ← closed "plural" (Stmt.phrases body)
    let k ← enclosed count
    let _ ← tagEnd
    let m ← block "endtrans" (Stmt.phrases plural)
    return ⟨.transTag, l, [], slot .context c ++ [(.body, n), (.count, k), (.plural, m)]⟩
  | .applyTag first rest body => tagged "apply" fun l => do
    let f ← first.phrase none
    let fs ← Filter.chain rest f
    let _ ← tagEnd
    let n ← block "endapply" (Stmt.phrases body)
    return ⟨.applyTag, l, [], [(.filters, fs), (.body, n)]⟩
  | .withTag context only body => tagged "with" fun l => do
    let c ← enclosed? context
    let _ ← wordIf only "only"
    let _ ← tagEnd
    let n ← block "endwith" (Stmt.phrases body)
    return ⟨.withTag, l, [(.only, .bool only)], slot .context c ++ [(.body, n)]⟩
  | .macroTag name params body endName => tagged "macro" fun l => do
    let _ ← word .name name
    let ps ← bracketed "(" ")" .targets (params.map Param.phrase)
    let _ ← tagEnd
    let n ← namedBlock "endmacro" name endName (Stmt.phrases body)
    return ⟨.macroTag, l, [(.name, .text name)], [(.targets, ps), (.body, n)]⟩
  | .importTag e target => tagged "import" fun l => do
    let n ← enclosed e
    let _ ← word .name "as"
    let start ← here
    let t ← bound target.text
    let _ ← tagEnd
    return ⟨.importTag, l, [], [(.template, n), (.targets, .listOf .targets start [t])]⟩
  | .fromTag e first rest => tagged "from" fun l => do
    let n ← enclosed e
    let start ← word .name "import"
    let ts ← commas ((first :: rest).map Imported.phrase)
    let _ ← tagEnd
    return ⟨.fromTag, l, [], [(.template, n), (.targets, .listOf .targets start ts)]⟩
  | .autoescapeTag strategy body => tagged "autoescape" fun l => do
    let s ← enclosed? strategy
    let _ ← tagEnd
    let n ← block "endautoescape" (Stmt.phrases body)
    return ⟨.autoescapeTag, l, [], slot .expr s ++ [(.body, n)]⟩

def Stmt.phrases : List Stmt → List (Phrase Node)
  | [] => []
  | x :: xs => x.phrase :: Stmt.phrases xs

def Stmt.phrases? : Option (List Stmt) → Option (List (Phrase Node))
  | none => none
  | some xs => some (Stmt.phrases xs)

/-- The further branches of a conditional and its alternative. -/
def Alternatives.phrase : Alternatives → Phrase (List Node × Option Node)
  | .done => pure ([], none)
  | .elseTag body => do
    let _ ← tagEnd
    return ([], some (← closed "endif" (Stmt.phrases body)))
  | .elseifTag condition body rest => do
    let n ← guarded condition rest.last (Stmt.phrases body)
    let r ← rest.phrase
    return (n :: r.1, r.2)

end

attribute [simp] Stmt.phrase Stmt.phrases Stmt.phrases? Alternatives.phrase

/-! ## Nesting -/

/-- The largest of the given measures. -/
def largest {α : Type} (f : α → Nat) : List α → Nat
  | [] => 0
  | x :: xs => max (f x) (largest f xs)

theorem le_largest {α : Type} (f : α → Nat) {x : α} {xs : List α} (h : x ∈ xs) :
    f x ≤ largest f xs := by
  induction xs with
  | nil => simp at h
  | cons y ys ih =>
    rcases List.mem_cons.mp h with rfl | h
    · exact Nat.le_max_left _ _
    · exact Nat.le_trans (ih h) (Nat.le_max_right _ _)

/-- The levels of an expression in parentheses. -/
def Expr.enclosedDepth (e : Expr) : Nat := e.depth + 1

def Expr.enclosedDepth? : Option Expr → Nat
  | none => 0
  | some e => e.enclosedDepth

def Param.depth : Param → Nat
  | .plain _ => 0
  | .optional _ _ default => default.enclosedDepth

def Inclusion.depth (i : Inclusion) : Nat :=
  max i.template.enclosedDepth (Expr.enclosedDepth? i.context)

mutual

/-- The levels of nesting in the tokens of a statement. -/
def Stmt.depth : Stmt → Nat
  | .text _ => 0
  | .print e => e.enclosedDepth
  | .setTag first rest => largest (fun a => a.2.enclosedDepth) (first :: rest) + 1
  | .captureTag _ body => Stmt.depths body + 1
  | .forTag _ _ seq body otherwise =>
    max seq.enclosedDepth (max (Stmt.depths body) (Stmt.depths? otherwise)) + 1
  | .ifTag condition body rest =>
    max condition.enclosedDepth (max (Stmt.depths body) rest.depth) + 1
  | .doTag e => e.enclosedDepth + 1
  | .flushTag => 1
  | .sandboxTag body => Stmt.depths body + 1
  | .includeTag inclusion => inclusion.depth + 1
  | .embedTag inclusion body => max inclusion.depth (Stmt.depths body) + 1
  | .extendsTag e => e.enclosedDepth + 1
  | .blockTag _ body _ => Stmt.depths body + 1
  | .shortBlockTag _ e => e.enclosedDepth + 1
  | .transTag context body => max (Expr.enclosedDepth? context) (Stmt.depths body) + 1
  | .pluralTag context body count plural =>
    max (max (Expr.enclosedDepth? context) (Stmt.depths body))
      (max count.enclosedDepth (Stmt.depths plural)) + 1
  | .applyTag first rest body =>
    max (largest (fun f => Arg.optionalDepth f.args) (first :: rest)) (Stmt.depths body) + 1
  | .withTag context _ body => max (Expr.enclosedDepth? context) (Stmt.depths body) + 1
  | .macroTag _ params body _ => max (largest Param.depth params) (Stmt.depths body) + 1
  | .importTag e _ => e.enclosedDepth + 1
  | .fromTag e _ _ => e.enclosedDepth + 1
  | .autoescapeTag strategy body => max (Expr.enclosedDepth? strategy) (Stmt.depths body) + 1

def Stmt.depths : List Stmt → Nat
  | [] => 0
  | x :: xs => max x.depth (Stmt.depths xs)

def Stmt.depths? : Option (List Stmt) → Nat
  | none => 0
  | some xs => Stmt.depths xs

def Alternatives.depth : Alternatives → Nat
  | .done => 0
  | .elseTag body => Stmt.depths body
  | .elseifTag condition body rest =>
    max condition.enclosedDepth (max (Stmt.depths body) rest.depth)

end

end TwigLint.Grammar
