import TwigLint.Proofs.Lexing.Alternation
import TwigLint.Template.Parser.Statement

/-! # Watched parsers

A watched parser counts how deep it is nested.  Its counter goes up at every expression and every
tag and comes down behind it, and the depth limit is compared with it.  It shows what it does to an
observer, who can stop it at any moment, and its recursion gives up when its fuel is used up.
-/

namespace TwigLint

/-- What an observer of a parser gets to see. -/
inductive Moment where
  /-- An expression or a tag has been entered: the counter, and what is left of the template. -/
  | entered (depth : Int) (s : TokenStream)
  /-- A nested part has been read: the counter in front of it and behind it. -/
  | left (before after : Int)
  /-- A statement is asked for, and this is the current token. -/
  | statement (tok : Token)
  /-- The recursion has no fuel left. -/
  | exhausted

namespace Moment

/-- Moments of a parser that is as it should be, for a template with so many tokens in front of its
end.  The counter is never above the number of consumed tokens, and a nested part leaves it as it
was. -/
def Sound (total : Nat) : Moment → Prop
  | entered depth s => depth ≤ total - s.tokens.length
  | left before after => after = before
  | statement tok => tok.type.startsStatement = true
  | exhausted => False

end Moment

/-- An observer stops a parser with an error, or lets it go on. -/
abbrev Observer := Moment → Option SyntaxError

/-- A parser with a counter. -/
abbrev CountingParser (α : Type) := StateT Int Parser α

namespace CountingParser

variable {α : Type} (watch : Observer)

/-- Shows a moment to the observer. -/
def notice (m : Moment) : Parser Unit :=
  match watch m with
  | some e => throw e
  | none => return ()

/-- Goes one level deeper at the given token. -/
def enter (limit : Nat) (tok : Token) : CountingParser Unit := fun depth => do
  let depth := depth + 1
  notice watch (.entered depth (← get))
  if (limit : Int) < depth then Parser.failAt tok (.depthExceeded limit)
  return ((), depth)

/-- Comes back from one level. -/
def leave : CountingParser Unit := modify fun depth => depth - 1

/-- A part one level deeper, over the counter there. -/
def deeper (limit : Nat) (tok : Token) (part : Int → Parser α) : CountingParser α := do
  enter watch limit tok
  let a ← part (← get)
  leave
  return a

/-- A nested part as the parser around it sees it.  It starts with the counter of that parser. -/
def nestedAt (depth : Int) (part : CountingParser α) : Parser α := do
  let (a, after) ← part.run depth
  notice watch (.left depth after)
  return a

/-- An expression. -/
def expression (limit : Nat) : (fuel precedence : Nat) → CountingParser Node
  | 0, _ => do
    notice watch .exhausted
    Parser.failAt (← Parser.current) (.depthExceeded limit)
  | fuel + 1, precedence => do
    deeper watch limit (← Parser.current) fun depth =>
      Parser.expressionOver (fun p => nestedAt watch depth (expression limit fuel p)) precedence

/-- A tag, over the parsers for the expressions and the bodies inside it. -/
def tag (limit : Nat) (expr : CountingParser Node)
    (sub : Option Parser.Opened → List Text → CountingParser (Node × Text)) (tok name : Token) :
    CountingParser Node :=
  deeper watch limit tok fun depth => Parser.tag (nestedAt watch depth expr)
    (fun opened ends => nestedAt watch depth (sub opened ends)) tok name

/-- The next statement of a body, whose first token the observer gets to see. -/
def statement (step : Parser.BodyState → Parser (Option Parser.BodyState))
    (state : Parser.BodyState) : Parser (Option Parser.BodyState) := do
  if state.last.isNone then notice watch (.statement (← Parser.current))
  step state

/-- A body over the parsers for expressions and for the tags in it. -/
def bodyOver (expr : Parser Node) (nested : Token → Token → Parser Node) : Parser.BodyParser :=
  fun opened ends => do
    let start ← Parser.current
    let step := statement watch (Parser.bodyStep expr nested opened ends)
    let state ← Parser.extend step ⟨[], none⟩
    return (.listOf .body start.location state.nodes.reverse, state.last.getD [])

/-- A body where the counter is known, over the parser for the bodies inside it. -/
def bodyAt (limit fuel : Nat)
    (sub : Option Parser.Opened → List Text → CountingParser (Node × Text)) (depth : Int) :
    Parser.BodyParser :=
  bodyOver watch (nestedAt watch depth (expression watch limit (fuel + 1) 0)) fun tok name =>
    nestedAt watch depth (tag watch limit (expression watch limit fuel 0) sub tok name)

/-- A body. -/
def body (limit : Nat) :
    (fuel : Nat) → Option Parser.Opened → List Text → CountingParser (Node × Text)
  | 0, _, _ => do
    notice watch .exhausted
    Parser.failAt (← Parser.current) (.depthExceeded limit)
  | fuel + 1, opened, ends => do bodyAt watch limit fuel (body limit fuel) (← get) opened ends

/-- A whole template. -/
def template (limit fuel : Nat) : CountingParser Node := do
  let start ← Parser.current
  let (node, _) ← body watch limit fuel none []
  return (Node.leaf .template start.location).withChild .body node

end CountingParser

end TwigLint
