import Std.Data.HashMap
import TwigLint.Yaml.Source

/-! # The state of the lexer

Tokens are read one by one, as far as the reader of the tokens looks ahead.  This module has what
the lexer knows in the middle of a text, and its smallest steps.  A step that fails leaves the lexer
where it stopped, so that reading can be taken up again behind the fault.
-/

namespace TwigLint.Yaml

/-- A token that may turn out to start a key. -/
structure KeyCandidate where
  /-- It may still become a key. -/
  possible : Bool
  /-- The line consists of a key: not finding the colon is an error. -/
  required : Bool
  /-- Position of the token in the stream. -/
  number : Nat
  mark : Mark

/-- What a comment belongs to: what follows it, the line in front of it, or what precedes it. -/
inductive CommentRole where
  | head
  | line
  | foot
  deriving DecidableEq, Repr

/-- A comment, or several on consecutive lines. -/
structure Comment where
  role : CommentRole
  text : List Char
  /-- Where the white space in front of it starts. -/
  scanned : Nat
  /-- It is attached to the first token that starts here or later. -/
  owner : Nat
  start : Mark
  /-- Where it ends; zero for a comment behind a token. -/
  stop : Nat

/-- What the lexer knows in the middle of a text. -/
structure Lexer where
  source : Source
  mark : Mark
  /-- Number of line breaks since the last character that is not white space. -/
  breaks : Nat
  /-- All tokens read so far. -/
  tokens : Array Token
  /-- Number of tokens that have been used. -/
  taken : Nat
  /-- Enough is known of the text behind the current token. -/
  ready : Bool
  /-- Column of the innermost block, minus one outside all blocks, and those around it. -/
  indent : Int
  outer : Array Int
  /-- The candidate outside flow collections and in each one around the cursor, innermost last. -/
  candidates : Array KeyCandidate
  /-- Tokens that may start keys, with the level of their candidates. -/
  waiting : Std.HashMap Nat Nat
  /-- A key may start here. -/
  keyAllowed : Bool
  /-- All comments read so far, and how many of them are attached to tokens. -/
  comments : Array Comment
  attached : Nat
  /-- The comments in front of the current token. -/
  head : List Char
  /-- A fault that was passed over for the time being. -/
  passed : Option SyntaxFault
  /-- More steps than the text has characters. -/
  limit : Nat

/-- A step of the lexer. -/
abbrev Lex (α : Type) := ExceptT SyntaxFault (StateM Lexer) α

namespace Lexer

/-- The lexer before the first character. -/
def ofText (t : Text) : Lexer where
  source := .ofText t
  mark := .start
  breaks := 0
  tokens := #[]
  taken := 0
  ready := false
  indent := -1
  outer := #[]
  candidates := #[⟨false, false, 0, .start⟩]
  waiting := ∅
  keyAllowed := true
  comments := #[]
  attached := 0
  head := []
  passed := none
  limit := t.length + 4

/-- The cursor stands inside a flow collection. -/
def inFlow (s : Lexer) : Bool := 1 < s.candidates.size

/-- Passes over one character; at the end of the text only the position changes. -/
def advance (s : Lexer) : Lexer :=
  { s with
    source := s.source.drop 1
    mark := s.mark.forward 1
    breaks := if s.source.peek?.any isBlank then s.breaks else 0 }

/-- Passes over a line break. -/
def nextLine (s : Lexer) : Lexer :=
  let width := match s.source.rest with
    | '\r' :: '\n' :: _ => 2
    | c :: _ => if isBreak c then 1 else 0
    | [] => 0
  if width = 0 then s
  else { s with
    source := s.source.drop width
    mark := s.mark.nextLine width
    breaks := s.breaks + 1 }

/-- A document mark stands at the cursor, alone or in front of a gap. -/
def atDocumentMark (s : Lexer) : Bool :=
  s.mark.column = 0 &&
    (s.source.rest.take 3 == ['-', '-', '-'] || s.source.rest.take 3 == ['.', '.', '.']) &&
    isGap (s.source.ahead? 3)

end Lexer

namespace Lex

/-- Fails in a construct that starts at `context`. -/
def refuse {α : Type} (problem : Problem) (context : Mark) : Lex α := do
  throw (.ofToken problem context (← get).mark)

/-- Makes `n` characters known; the result tells what is wrong with them. -/
def look (n : Nat) : Lex (Option SyntaxFault) :=
  modifyGet fun s =>
    let (source, problem?) := s.source.ensure n
    (problem?.map (.ofCharacters · s.passed), { s with source })

/-- Makes `n` characters known, or fails if they are malformed. -/
def ensure (n : Nat) : Lex Unit := do
  if (← get).source.known < n then
    if let some fault ← look n then throw fault

/-- Makes `n` characters known.  Malformed ones are passed over for the time being. -/
def tryEnsure (n : Nat) : Lex Bool := do
  if n ≤ (← get).source.known then return true
  match ← look n with
  | none => return true
  | some fault =>
    modify fun s => { s with passed := some fault }
    return false

/-- Carries out a step and passes over its fault for the time being. -/
def attempt {α : Type} (step : Lex α) : Lex (Option α) :=
  tryCatch (some <$> step) fun fault => do
    modify fun s => { s with passed := some fault }
    return none

/-- The position of the cursor. -/
def mark : Lex Mark := return (← get).mark

/-- The next character. -/
def peek? : Lex (Option Char) := return (← get).source.peek?

/-- The character `n` places after the next one. -/
def ahead? (n : Nat) : Lex (Option Char) := return (← get).source.ahead? n

/-- Passes over one character. -/
def skip : Lex Unit := modify Lexer.advance

/-- Passes over a number of characters that are known. -/
def skipKnown : Nat → Lex Unit
  | 0 => return ()
  | n + 1 => do
    skip
    skipKnown n

/-- Passes over a line break. -/
def skipLine : Lex Unit := do
  ensure 2
  modify Lexer.nextLine

/-- Passes over a line break and gives what it reads as. -/
def readLine : Lex Char := do
  ensure 2
  let c? ← peek?
  modify Lexer.nextLine
  return breakText (c?.getD '\n')

/-- The characters with a property from the cursor on, in front of `done` with its last character
first.  No line break has the property. -/
def readRun (p : Char → Bool) : Nat → List Char → Lex (List Char)
  | 0, done => return done.reverse
  | n + 1, done => do
    ensure 1
    match ← peek? with
    | some c =>
      if p c then
        skip
        readRun p n (c :: done)
      else return done.reverse
    | none => return done.reverse

/-- The longest run of characters with a property that no line break has. -/
def readWhile (p : Char → Bool) : Lex (List Char) := do
  readRun p (← get).limit []

/-- Passes over the longest run of characters with a property that no line break has. -/
def skipWhile (p : Char → Bool) : Lex Unit := do
  let _ ← readWhile p

/-- Passes over one character and makes the next one known. -/
def skipOne : Lex Unit := do
  skip
  ensure 1

/-- Adds a token that starts at `start` and reaches to the cursor. -/
def push (kind : TokenKind) (start : Mark) : Lex Unit :=
  modify fun s => { s with tokens := s.tokens.push ⟨kind, start, s.mark⟩ }

/-- Adds a token of `n` characters. -/
def pushMark (kind : TokenKind) (n : Nat) : Lex Unit := do
  let start ← mark
  skipKnown n
  push kind start

/-- Inserts an empty token in front of the token with a number.  If that token has been used, the
new one comes last. -/
def insert (number : Nat) (kind : TokenKind) (m : Mark) : Lex Unit :=
  modify fun s =>
    let token : Token := ⟨kind, m, m⟩
    if number < s.taken then { s with tokens := s.tokens.push token }
    else { s with tokens := s.tokens.insertIdxIfInBounds number token }

end Lex

end TwigLint.Yaml
