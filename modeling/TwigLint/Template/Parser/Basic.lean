import TwigLint.Template.Segment
import TwigLint.Template.Node.Basic

/-! # Parsers over token streams

A parser reads tokens from the front of a stream and fails with a syntax error.  The end token is
never consumed, so there is always a current token.  Repetition is written with `extend`, whose
steps consume at least one token each.
-/

namespace TwigLint

/-- A computation that consumes tokens. -/
abbrev Parser (α : Type) := StateT TokenStream (Except SyntaxError) α

namespace TokenStream

/-- The current token. -/
def current (s : TokenStream) : Token := s.tokens.headD s.eof

/-- The token after the current one. -/
def lookAhead (s : TokenStream) : Token := (s.tokens.drop 1).headD s.eof

/-- The stream without its current token. -/
def advance (s : TokenStream) : TokenStream := { s with tokens := s.tokens.drop 1 }

end TokenStream

namespace Parser

/-- Fails at the given token. -/
def failAt {α : Type} (tok : Token) (fault : SyntaxFault) : Parser α :=
  throw ⟨fault, tok.location⟩

/-- The current token. -/
def current : Parser Token := return (← get).current

/-- Consumes the current token. -/
def next : Parser Token := do
  let s ← get
  set s.advance
  return s.current

/-- The current token has the given type. -/
def atType (type : TokenType) : Parser Bool := return (← current).type == type

/-- The current token has the given type and value. -/
def atToken (type : TokenType) (value : Text) : Parser Bool := return (← current).is type value

/-- Consumes the current token if it has the given type and value. -/
def accept (type : TokenType) (value : Text) : Parser Bool := do
  if ← atToken type value then
    let _ ← next
    return true
  return false

/-- Consumes a token of the given type and one of the given values, any value when none is given. -/
def expect (type : TokenType) (values : List Text) : Parser Token := do
  let tok ← current
  if tok.isOneOf type values then next else failAt tok (.expected tok type values)

/-- Consumes a punctuation mark. -/
def expectMark (mark : Text) : Parser Token := expect .punctuation [mark]

/-- Consumes a name. -/
def expectName : Parser Token := expect .name []

/-- Consumes the end of a tag. -/
def expectTagEnd : Parser Unit := do
  let _ ← expect .tagEnd []

/-- Repeats `step` until it answers `none`, at most `n` times. -/
def extendUpTo {α : Type} (step : α → Parser (Option α)) : (n : Nat) → α → Parser α
  | 0, a => pure a
  | n + 1, a => do
    match ← step a with
    | none => pure a
    | some b => extendUpTo step n b

/-- Repeats `step` until it answers `none`.  Every other step consumes a token, so the number of
tokens bounds the number of steps. -/
def extend {α : Type} (step : α → Parser (Option α)) (a : α) : Parser α := do
  extendUpTo step ((← get).tokens.length + 1) a

/-- Items separated by commas up to a closing mark, which is consumed; a comma may stand before the
mark.  `missing` is the fault of an item without a comma before it. -/
def commaList {α : Type} (close : Text) (missing : SyntaxFault) (item : Parser α) :
    Parser (List α) := do
  let items ← extend step []
  let _ ← expectMark close
  return items.reverse
where
  step (items : List α) : Parser (Option (List α)) := do
    if ← atToken .punctuation close then return none
    if !items.isEmpty then
      if !(← accept .punctuation ",") then failAt (← current) missing
      if ← atToken .punctuation close then return none
    return some ((← item) :: items)

end Parser

end TwigLint
