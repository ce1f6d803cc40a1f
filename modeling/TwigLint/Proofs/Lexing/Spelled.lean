import TwigLint.Template.Segment

/-! # Spelled tokens

The tokens that can stand inside a print statement or a tag, each with the way it is written.
Sequences of them are written with single blanks between neighbours.  Brackets are nested as a
grammar says, and neighbours that would run together to an operator of two words are told apart.
-/

namespace TwigLint.Lexing

/-! ## Tokens -/

/-- A letter or underscore, and then letters, digits and underscores. -/
def isIdentifier : Text → Bool
  | [] => false
  | b :: t => (Text.isLetter b || b == '_') && t.all Text.isWordByte

/-- A name that is no operator. -/
structure Name where
  text : Text
  identifier : isIdentifier text = true
  notOperator : ∀ ws ∈ Lexeme.wordOperators, text ≠ Text.join " " ws

/-- One or more digits. -/
structure Digits where
  text : Text
  nonempty : text ≠ []
  digits : ∀ b ∈ text, Text.isDigit b = true

/-- The two quote characters. -/
inductive Quote where
  | single
  | double
  deriving DecidableEq, Repr

def Quote.byte : Quote → UInt8
  | single => '\''
  | double => '"'

/-- A token inside a print statement or a tag. -/
inductive Spelled where
  | name (n : Name)
  | number (whole : Digits)
  | decimal (whole fraction : Digits)
  | string (quote : Quote) (content : Text)
  | word (ws : List Text) (listed : ws ∈ Lexeme.wordOperators)
  | symbol (op : Text) (listed : op ∈ Lexeme.symbolOperators)
  | mark (b : UInt8) (listed : b ∈ Lexeme.punctuation)
  | arrow

/-- One byte of a string as it is written between quotes. -/
def escape (quote b : UInt8) : Text :=
  if b == '\\' || b == quote then ['\\', b]
  else if b == '\r' then ['\\', 'r']
  else if b == '\n' then ['\\', 'n']
  else [b]

namespace Spelled

def type : Spelled → TokenType
  | name _ => .name
  | number _ => .number
  | decimal _ _ => .number
  | string _ _ => .string
  | word _ _ => .operator
  | symbol _ _ => .operator
  | mark _ _ => .punctuation
  | arrow => .arrow

/-- The bytes with which a token is written. -/
def print : Spelled → Text
  | name n => n.text
  | number whole => whole.text
  | decimal whole fraction => whole.text ++ "." ++ fraction.text
  | string quote content => quote.byte :: content.flatMap (escape quote.byte) ++ [quote.byte]
  | word ws _ => Text.join " " ws
  | symbol op _ => op
  | mark b _ => [b]
  | arrow => "=>"

/-- The value of a token; only that of a string is not what is written. -/
def value : Spelled → Text
  | string _ content => content
  | t => t.print

/-! ## Sequences -/

/-- The pairs of brackets. -/
def brackets : List (UInt8 × UInt8) := [('(', ')'), ('[', ']'), ('{', '}')]

/-- The token is an opening or closing bracket. -/
def isBracket : Spelled → Bool
  | mark b _ => brackets.any fun pair => b == pair.1 || b == pair.2
  | _ => false

/-- Every bracket is closed by its partner, and brackets do not cross. -/
inductive Nested : List Spelled → Prop
  | nil : Nested []
  | plain {t : Spelled} {ts : List Spelled} (single : t.isBracket = false) (rest : Nested ts) :
      Nested (t :: ts)
  | group {o c : UInt8} {ho : o ∈ Lexeme.punctuation} {hc : c ∈ Lexeme.punctuation}
      {ts us : List Spelled} (pair : (o, c) ∈ brackets) (inner : Nested ts) (rest : Nested us) :
      Nested (mark o ho :: ts ++ mark c hc :: us)

/-- The two tokens, written one behind the other, start with an operator of two words. -/
def Fuses (t u : Spelled) : Prop :=
  (t.print, u.print) ∈ ([("not", "in"), ("is", "not"), ("is", "not in"), ("starts", "with"),
    ("ends", "with")] : List (Text × Text))

instance (t u : Spelled) : Decidable (Fuses t u) := inferInstanceAs (Decidable (_ ∈ _))

/-- The source of a print statement or a tag with the given tokens. -/
def source (kind : Segment.TagKind) (ts : List Spelled) : Text :=
  kind.opener ++ " " ++ Text.join " " (ts.map print) ++ " " ++ kind.closer

end Spelled

end TwigLint.Lexing
