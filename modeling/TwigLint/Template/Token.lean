import TwigLint.Text.Quoted

/-! # Tokens of a template

A template is text with print statements `{{ … }}`, tags `{% … %}` and comments `{# … #}`.  This
module has the tokens these are made of and the ways in which a template can be malformed.
-/

namespace TwigLint

/-- A source position.  Lines and columns count from one, columns in bytes; a line that is not
positive means that the position is unknown. -/
structure Location where
  line : Int
  column : Int
  deriving DecidableEq, Repr, Inhabited

namespace Location

/-- The position of the first byte. -/
def start : Location := ⟨1, 1⟩

/-- No position. -/
def unknown : Location := ⟨0, 0⟩

def isValid (l : Location) : Bool := 0 < l.line

/-- `line:column`, or a mark for an unknown position. -/
def render (l : Location) : Text :=
  if l.isValid then Text.ofInt l.line ++ ":" ++ Text.ofInt l.column else "<unknown>"

/-- The position after one byte. -/
def step (l : Location) (b : UInt8) : Location :=
  if b == '\n' then ⟨l.line + 1, 1⟩ else ⟨l.line, l.column + 1⟩

/-- The position after the given bytes. -/
def advance (l : Location) (t : Text) : Location := t.foldl step l

end Location

/-- What a token is. -/
inductive TokenType where
  | text
  | printStart
  | printEnd
  | tagStart
  | tagEnd
  | name
  | number
  | string
  | operator
  | punctuation
  | arrow
  | eof
  deriving DecidableEq, Repr

namespace TokenType

/-- The name by which messages call a token. -/
def label : TokenType → Text
  | text => "text"
  | printStart => "print statement start"
  | printEnd => "end of print statement"
  | tagStart => "tag start"
  | tagEnd => "end of tag"
  | name => "name"
  | number => "number"
  | string => "string"
  | operator => "operator"
  | punctuation => "punctuation"
  | arrow => "arrow function"
  | eof => "end of template"

end TokenType

/-- A token with its value and the position of its first byte.  The value of a string token is its
content. -/
structure Token where
  type : TokenType
  value : Text
  location : Location
  deriving DecidableEq, Repr

namespace Token

/-- The token has the given type and value. -/
def is (tok : Token) (type : TokenType) (value : Text) : Bool :=
  tok.type == type && tok.value == value

/-- The token has the given type and one of the given values, or any value when none is given. -/
def isOneOf (tok : Token) (type : TokenType) (values : List Text) : Bool :=
  tok.type == type && (values.isEmpty || values.contains tok.value)

/-- The quoted value. -/
def shown (tok : Token) : Text :=
  if tok.type == .eof then TokenType.eof.label else tok.value.quoted

/-- Type and quoted value, for messages. -/
def described (tok : Token) : Text :=
  if tok.type == .eof then TokenType.eof.label
  else tok.type.label ++ " " ++ tok.value.quoted

end Token

/-- What is wrong with a malformed template. -/
inductive SyntaxFault where
  | unclosedComment
  /-- A section or block tag without its end tag. -/
  | unclosedBlock (tag : Text)
  /-- A bracket, print statement or tag that is still open. -/
  | unclosed (what : Text)
  | unclosedString
  | unexpectedBracket (bracket : UInt8)
  | unexpectedCharacter (byte : UInt8)
  | unexpectedToken (found : Token)
  | expected (found : Token) (type : TokenType) (values : List Text)
  | depthExceeded (limit : Int)
  | unclosedParenthesis
  | missingArrayComma
  | missingHashComma
  | missingArgumentComma
  | badHashKey (found : Token)
  | missingHashColon
  | badAttribute (found : Token)
  | missingTagName
  | unexpectedTag (tag : Text)
  | unknownTag (tag : Text)
  | reservedTarget (name : Text)
  | importAlias
  | setArity
  | setMultiTarget
  | loopTargets
  | endName (tag name found : Text)
  deriving DecidableEq, Repr

namespace SyntaxFault

def message : SyntaxFault → Text
  | unclosedComment => "Unclosed comment."
  | unclosedBlock tag => "Unclosed \"" ++ tag ++ "\" block."
  | unclosed what => "Unclosed \"" ++ what ++ "\"."
  | unclosedString => "Unclosed string."
  | unexpectedBracket bracket => "Unexpected \"" ++ [bracket] ++ "\"."
  | unexpectedCharacter byte => "Unexpected character \"" ++ [byte] ++ "\"."
  | unexpectedToken found => "Unexpected " ++ found.described ++ "."
  | expected found type values =>
    let want : Text :=
      if values.isEmpty then type.label
      else type.label ++ " \"" ++ Text.join "\" or \"" values ++ "\""
    "Unexpected " ++ found.described ++ " (" ++ want ++ " expected)."
  | depthExceeded limit => "Maximum nesting depth of " ++ Text.ofInt limit ++ " exceeded."
  | unclosedParenthesis => "An opened parenthesis is not properly closed."
  | missingArrayComma => "An array element must be followed by a comma."
  | missingHashComma => "A hash value must be followed by a comma."
  | missingArgumentComma => "Arguments must be separated by a comma."
  | badHashKey found =>
    "A hash key must be a quoted string, a number, a name, or an expression enclosed in " ++
      "parentheses (unexpected " ++ found.described ++ ")."
  | missingHashColon => "A hash key must be followed by a colon (:)."
  | badAttribute found => "Expected name or number (unexpected " ++ found.described ++ ")."
  | missingTagName => "A block must start with a tag name."
  | unexpectedTag tag => "Unexpected \"" ++ tag ++ "\" tag."
  | unknownTag tag => "Unknown \"" ++ tag ++ "\" tag."
  | reservedTarget name => "You cannot assign a value to \"" ++ name ++ "\"."
  | importAlias => "An import must have exactly one alias."
  | setArity => "When using set, you must have the same number of variables and assignments."
  | setMultiTarget => "When using set with a block, you cannot have a multi-target."
  | loopTargets => "Only one or two loop targets are allowed."
  | endName tag name found =>
    "Expected end" ++ tag ++ " for " ++ tag ++ " \"" ++ name ++ "\" (but \"" ++ found ++
      "\" given)."

end SyntaxFault

/-- A malformed template: the fault and where it is. -/
structure SyntaxError where
  fault : SyntaxFault
  location : Location
  deriving DecidableEq, Repr

namespace SyntaxError

def message (e : SyntaxError) : Text := e.fault.message

/-- The message with its line. -/
def text (e : SyntaxError) : Text :=
  if 0 < e.location.line then e.message ++ " at line " ++ Text.ofInt e.location.line
  else e.message

end SyntaxError

end TwigLint
