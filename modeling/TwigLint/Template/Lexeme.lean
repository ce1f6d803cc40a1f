import TwigLint.Template.Token

/-! # Lexemes

Inside a print statement or a tag the source is a sequence of blanks and lexemes.  `Lexeme.read`
recognises the lexeme at the front of a text; the order of its alternatives decides every overlap:
an arrow before `=`, word operators before names, longer symbols before shorter ones, and symbol
operators before punctuation.
-/

namespace TwigLint

/-- A recognised lexeme: its type, its value, and the bytes it was read from. -/
structure Lexeme where
  type : TokenType
  value : Text
  source : Text
  deriving DecidableEq, Repr

namespace Lexeme

/-- White space that separates words of an operator or of a section tag. -/
def isBlank (b : UInt8) : Bool :=
  b == ' ' || b == '\t' || b == '\n' || b == 12 || b == '\r'

/-- The byte can start a name.  All bytes from DEL on count as letters. -/
def isNameStart (b : UInt8) : Bool := Text.isLetter b || b == '_' || 0x7f ≤ b

/-- The byte can continue a name. -/
def isNameByte (b : UInt8) : Bool := isNameStart b || Text.isDigit b

/-- The operators made of words, in the order in which they are tried. -/
def wordOperators : List (List Text) :=
  [["starts", "with"], ["ends", "with"], ["not", "in"], ["is", "not"], ["matches"], ["b-and"],
    ["b-xor"], ["b-or"], ["and"], ["not"], ["or"], ["in"], ["is"]]

/-- The operators made of symbols; an operator stands before its own beginnings. -/
def symbolOperators : List Text :=
  ["<=>", "...", "??", "**", "//", "..", "==", "!=", "<=", ">=", "<", ">", "+", "-", "~", "*", "/",
    "%"]

def punctuation : Text := "()[]\x7b\x7d?:.,|="

/-- The words at the front of a text with blanks between them: the bytes read and the rest. -/
def readWords? : List Text → Text → Option (Text × Text)
  | [], t => some ([], t)
  | [w], t => (Text.after? w t).map fun r => (w, r)
  | w :: v :: ws, t => do
    let r ← Text.after? w t
    let blanks := r.takeWhile isBlank
    if blanks.isEmpty then none
    let (source, rest) ← readWords? (v :: ws) (r.dropWhile isBlank)
    return (w ++ blanks ++ source, rest)

/-- A word operator ends where no letter, digit or underscore follows. -/
def endsWord : Text → Bool
  | [] => true
  | b :: _ => !Text.isWordByte b

/-- The word operator at the front of a text. -/
def wordOperator? (t : Text) : Option Lexeme :=
  wordOperators.findSome? fun ws =>
    match readWords? ws t with
    | some (source, rest) =>
      if endsWord rest then some ⟨.operator, Text.join " " ws, source⟩ else none
    | none => none

/-- Digits, with a fraction only when a digit follows the point. -/
def number (t : Text) : Text :=
  let whole := t.takeWhile Text.isDigit
  match t.dropWhile Text.isDigit with
  | p :: d :: r =>
    if p == '.' && Text.isDigit d then whole ++ p :: d :: r.takeWhile Text.isDigit else whole
  | _ => whole

/-- The byte that a backslash and the given byte stand for. -/
def unescape (b : UInt8) : UInt8 :=
  if b == 'n' then 10
  else if b == 't' then 9
  else if b == 'r' then 13
  else if b == 'v' then 11
  else if b == 'f' then 12
  else b

/-- Content and source of a string up to its closing quote. -/
def stringBody? (quote : UInt8) : Text → Option (Text × Text)
  | [] => none
  | [b] => if b == quote then some ([], [b]) else none
  | b :: c :: t =>
    if b == quote then some ([], [b])
    else if b == '\\' then
      (stringBody? quote t).map fun (value, source) => (unescape c :: value, b :: c :: source)
    else
      (stringBody? quote (c :: t)).map fun (value, source) => (b :: value, b :: source)

/-- The lexeme at the front of the text `b :: t`. -/
def read (b : UInt8) (t : Text) : Except SyntaxFault Lexeme :=
  if Text.startsWith (b :: t) "=>" then .ok ⟨.arrow, "=>", "=>"⟩
  else
    match wordOperator? (b :: t) with
    | some lexeme => .ok lexeme
    | none =>
      if isNameStart b then
        let name := b :: t.takeWhile isNameByte
        .ok ⟨.name, name, name⟩
      else if Text.isDigit b then
        let digits := number (b :: t)
        .ok ⟨.number, digits, digits⟩
      else
        match symbolOperators.find? fun op => Text.startsWith (b :: t) op with
        | some op => .ok ⟨.operator, op, op⟩
        | none =>
          if punctuation.contains b then .ok ⟨.punctuation, [b], [b]⟩
          else if b == '\'' || b == '"' then
            match stringBody? b t with
            | some (value, source) => .ok ⟨.string, value, b :: source⟩
            | none => .error .unclosedString
          else .error (.unexpectedCharacter b)

end Lexeme

end TwigLint
