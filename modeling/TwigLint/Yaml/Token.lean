import TwigLint.Text.Utf8

/-! # Tokens of a YAML text

A YAML text is a sequence of characters.  This module has the tokens it is made of and the ways in
which it can be malformed.
-/

namespace TwigLint.Yaml

/-- A position in a text, everything counted in characters from zero. -/
structure Mark where
  index : Nat
  line : Nat
  column : Nat
  deriving DecidableEq, Repr, Inhabited

namespace Mark

/-- The position before the first character. -/
def start : Mark := ⟨0, 0, 0⟩

/-- The position `n` characters further on the same line. -/
def forward (m : Mark) (n : Nat) : Mark := ⟨m.index + n, m.line, m.column + n⟩

/-- The start of the next line, after a line break of `n` characters. -/
def nextLine (m : Mark) (n : Nat) : Mark := ⟨m.index + n, m.line + 1, 0⟩

end Mark

/-- How a scalar is written. -/
inductive ScalarStyle where
  | plain
  | quoted
  | block
  deriving DecidableEq, Repr

/-- What a token is. -/
inductive TokenKind where
  | streamStart
  | streamEnd
  | version (major minor : Nat)
  | tagHandle (handle expansion : Text)
  | documentStart
  | documentEnd
  | blockSequenceStart
  | blockMappingStart
  | blockEnd
  | flowSequenceStart
  | flowSequenceEnd
  | flowMappingStart
  | flowMappingEnd
  | blockEntry
  | flowEntry
  | key
  | value
  | aliasOf (name : Text)
  | anchor (name : Text)
  | tag (handle suffix : Text)
  | scalar (text : Text) (style : ScalarStyle)
  deriving DecidableEq, Repr

/-- A token with the positions where it starts and ends. -/
structure Token where
  kind : TokenKind
  start : Mark
  stop : Mark
  deriving DecidableEq, Repr

/-- The ways in which a text is not YAML. -/
inductive Problem where
  -- characters
  | controlCharacter
  | badLeadingOctet
  | incompleteSequence
  | badTrailingOctet
  | overlongSequence
  | notCharacter
  -- tokens
  | noToken
  | misplacedEntry
  | misplacedKey
  | misplacedValue
  | missingColon
  | tooDeep
  | noDirectiveName
  | oddDirectiveName
  | unknownDirective
  | directiveTail
  | longVersion
  | noVersion
  | versionPoint
  | noAnchorName
  | handleMark
  | noTagUri
  | uriEscape
  | uriLeadingOctet
  | uriTrailingOctet
  | tagClose
  | tagTail
  | handleTail
  | zeroIndent
  | blockTail
  | blockTab
  | plainTab
  | documentMarkInQuotes
  | openQuotes
  | unknownEscape
  | hexEscape
  | escapedCode
  -- structure
  | noDocumentStart
  | repeatedVersion
  | wrongVersion
  | repeatedHandle
  | unknownHandle
  | noContent
  | noEntry
  | noKey
  | noSequenceComma
  | noMappingComma
  deriving DecidableEq, Repr

/-- The wording of a problem. -/
def Problem.message : Problem → Text
  | .controlCharacter => "control characters are not allowed"
  | .badLeadingOctet => "invalid leading UTF-8 octet"
  | .incompleteSequence => "incomplete UTF-8 octet sequence"
  | .badTrailingOctet => "invalid trailing UTF-8 octet"
  | .overlongSequence => "invalid length of a UTF-8 sequence"
  | .notCharacter => "invalid Unicode character"
  | .noToken => "found character that cannot start any token"
  | .misplacedEntry => "block sequence entries are not allowed in this context"
  | .misplacedKey => "mapping keys are not allowed in this context"
  | .misplacedValue => "mapping values are not allowed in this context"
  | .missingColon => "could not find expected ':'"
  | .tooDeep => "exceeded max depth of 10000"
  | .noDirectiveName => "could not find expected directive name"
  | .oddDirectiveName => "found unexpected non-alphabetical character"
  | .unknownDirective => "found unknown directive name"
  | .directiveTail => "did not find expected comment or line break"
  | .longVersion => "found extremely long version number"
  | .noVersion => "did not find expected version number"
  | .versionPoint => "did not find expected digit or '.' character"
  | .noAnchorName => "did not find expected alphabetic or numeric character"
  | .handleMark => "did not find expected '!'"
  | .noTagUri => "did not find expected tag URI"
  | .uriEscape => "did not find URI escaped octet"
  | .uriLeadingOctet => "found an incorrect leading UTF-8 octet"
  | .uriTrailingOctet => "found an incorrect trailing UTF-8 octet"
  | .tagClose => "did not find the expected '>'"
  | .tagTail => "did not find expected whitespace or line break"
  | .handleTail => "did not find expected whitespace"
  | .zeroIndent => "found an indentation indicator equal to 0"
  | .blockTail => "did not find expected comment or line break"
  | .blockTab => "found a tab character where an indentation space is expected"
  | .plainTab => "found a tab character that violates indentation"
  | .documentMarkInQuotes => "found unexpected document indicator"
  | .openQuotes => "found unexpected end of stream"
  | .unknownEscape => "found unknown escape character"
  | .hexEscape => "did not find expected hexdecimal number"
  | .escapedCode => "found invalid Unicode character escape code"
  | .noDocumentStart => "did not find expected <document start>"
  | .repeatedVersion => "found duplicate %YAML directive"
  | .wrongVersion => "found incompatible YAML document"
  | .repeatedHandle => "found duplicate %TAG directive"
  | .unknownHandle => "found undefined tag handle"
  | .noContent => "did not find expected node content"
  | .noEntry => "did not find expected '-' indicator"
  | .noKey => "did not find expected key"
  | .noSequenceComma => "did not find expected ',' or ']'"
  | .noMappingComma => "did not find expected ',' or '\x7d'"

/-- Why a text is malformed. -/
structure SyntaxFault where
  problem : Problem
  /-- It was found while a token was read, not in the order of the tokens. -/
  inToken : Bool
  /-- Where the construct starts in which it was found; the start of the text for none. -/
  context : Mark
  /-- The position reached. -/
  reached : Mark
  deriving DecidableEq, Repr

namespace SyntaxFault

/-- A fault found while reading a token that starts at `context`. -/
def ofToken (problem : Problem) (context reached : Mark) : SyntaxFault :=
  ⟨problem, true, context, reached⟩

/-- A fault in the order of tokens. -/
def ofStructure (problem : Problem) (context found : Mark) : SyntaxFault :=
  ⟨problem, false, context, found⟩

/-- A fault in the characters has no position; it keeps that of a fault that was passed over. -/
def ofCharacters (problem : Problem) (earlier : Option SyntaxFault) : SyntaxFault :=
  match earlier with
  | some fault => ⟨problem, false, fault.context, fault.reached⟩
  | none => ⟨problem, false, .start, .start⟩

/-- The line that the message names: that of the context, or the one reached if the context is on
the first line.  Lines of tokens count from one, all others from zero, and line zero is not
named. -/
def line? (f : SyntaxFault) : Option Nat :=
  let line := if f.context.line = 0 then f.reached.line else f.context.line
  if line = 0 then none else some (if f.inToken then line + 1 else line)

/-- The message of a fault. -/
def message (f : SyntaxFault) : Text :=
  match f.line? with
  | some line => "line " ++ Text.ofNat line ++ ": " ++ f.problem.message
  | none => f.problem.message

end SyntaxFault

end TwigLint.Yaml
