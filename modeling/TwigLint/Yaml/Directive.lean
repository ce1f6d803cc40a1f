import TwigLint.Yaml.Lexer

/-! # Directives, tags and names

What may stand in front of a document or a node: directives, tags, and the names of anchors.
-/

namespace TwigLint.Yaml

def isUriChar (c : Char) : Bool :=
  isWordChar c || [';', '/', '?', ':', '@', '&', '=', '+', '$', ',', '.', '!', '~', '*', '\'', '(',
    ')', '[', ']', '%'].contains c

/-- Characters that may follow the name of an anchor directly. -/
def isNameStop (c : Char) : Bool := ['?', ':', ',', ']', '}', '%', '@', '\x60'].contains c

namespace Lex

/-! ## Tags -/

/-- The octet of a percent escape at the cursor, which is not passed over. -/
def peekOctet (start : Mark) : Lex UInt8 := do
  ensure 3
  match (← get).source.rest with
  | '%' :: a :: b :: _ =>
    if isHexChar a && isHexChar b then return (16 * hexCharValue a + hexCharValue b).toUInt8
    else refuse .uriEscape start
  | _ => refuse .uriEscape start

/-- The trailing octets of an escaped character, added to `done` with its last byte first. -/
def readTrailing (start : Mark) : Nat → Text → Lex Text
  | 0, done => return done
  | n + 1, done => do
    let b ← peekOctet start
    if !Text.isTail b then refuse .uriTrailingOctet start
    else
      skipKnown 3
      readTrailing start n (b :: done)

/-- The characters of a tag with percent escapes decoded, added to `done` with its last byte
first. -/
def readUriRun (start : Mark) : Nat → Text → Lex Text
  | 0, done => return done
  | n + 1, done => do
    ensure 1
    match ← peek? with
    | none => return done
    | some c =>
      if !isUriChar c then return done
      else if c == '%' then
        let b ← peekOctet start
        if octets b = 0 then refuse .uriLeadingOctet start
        else
          skipKnown 3
          readUriRun start n (← readTrailing start (octets b - 1) (b :: done))
      else
        skip
        readUriRun start n ((textOf [c]).reverse ++ done)

/-- The rest of a tag after `known`.  Nothing may follow a handle only if `optional`. -/
def readUri (start : Mark) (known : Text) (optional : Bool) : Lex Text := do
  ensure 1
  let before ← mark
  let uri ← readUriRun start (← get).limit known.reverse
  if !optional && (← mark) == before then refuse .noTagUri start
  else return uri.reverse

/-- A tag handle such as `!`, `!!` or `!name!`, or the start of a tag without a handle. -/
def readHandle (start : Mark) (directive : Bool) : Lex (List Char) := do
  ensure 1
  if (← peek?) != some '!' then refuse .handleMark start
  else
    skip
    let word ← readWhile isWordChar
    if (← peek?) == some '!' then
      skip
      return '!' :: word ++ ['!']
    else if directive && !word.isEmpty then refuse .handleMark start
    else return '!' :: word

/-- The tag at the cursor: its handle and the rest. -/
def readTag (start : Mark) : Lex (Text × Text) := do
  ensure 2
  let tag ←
    if (← ahead? 1) == some '<' then do
      skipKnown 2
      let uri ← readUri start [] false
      if (← peek?) != some '>' then refuse .tagClose start
      else
        skip
        pure (([] : Text), uri)
    else do
      let handle ← readHandle start false
      if 1 < handle.length && handle.getLast? == some '!' then
        pure (textOf handle, ← readUri start [] false)
      else
        let uri ← readUri start (textOf (handle.drop 1)) true
        pure (if uri.isEmpty then (([] : Text), Text.ofString "!") else (Text.ofString "!", uri))
  ensure 1
  if !isGap (← peek?) then refuse .tagTail start else return tag

/-! ## Names -/

/-- The name of an anchor, after its mark. -/
def readName (start : Mark) : Lex Text := do
  let name ← readWhile isWordChar
  let c? ← peek?
  if name.isEmpty || !(isGap c? || c?.any isNameStop) then refuse .noAnchorName start
  else return textOf name

/-! ## Directives -/

/-- A number of a version, of two digits at most; `n` digits may follow. -/
def readVersionNumber (start : Mark) : Nat → (seen : Bool) → Nat → Lex Nat
  | n, seen, value => do
    ensure 1
    match ← peek? with
    | some d =>
      if !d.isDigit then finish seen value
      else
        match n with
        | 0 => refuse .longVersion start
        | n + 1 =>
          skip
          readVersionNumber start n true (10 * value + (d.toNat - 48))
    | none => finish seen value
where
  finish (seen : Bool) (value : Nat) : Lex Nat :=
    if seen then return value else refuse .noVersion start

/-- The value of the directive with a name. -/
def readDirectiveValue (start : Mark) (name : List Char) : Lex TokenKind := do
  if name == "YAML".toList then
    skipWhile isBlank
    let major ← readVersionNumber start 2 false 0
    if (← peek?) != some '.' then refuse .versionPoint start
    else
      skip
      return .version major (← readVersionNumber start 2 false 0)
  else if name == "TAG".toList then
    skipWhile isBlank
    let handle ← readHandle start true
    ensure 1
    if !(← peek?).any isBlank then refuse .handleTail start
    else
      skipWhile isBlank
      let uri ← readUri start [] false
      ensure 1
      if !isGap (← peek?) then refuse .tagTail start else return .tagHandle (textOf handle) uri
  else refuse .unknownDirective start

/-- The directive at the cursor, and where its value ends. -/
def readDirective (start : Mark) : Lex (TokenKind × Mark) := do
  skip
  let name ← readWhile isWordChar
  if name.isEmpty then refuse .noDirectiveName start
  else if !isGap (← peek?) then refuse .oddDirectiveName start
  else
    let kind ← readDirectiveValue start name
    let stop ← mark
    skipWhile isBlank
    if (← peek?) == some '#' then skipWhile (!isBreak ·)
    if !isLineEnd (← peek?) then refuse .directiveTail start
    else
      if (← peek?).any isBreak then skipLine
      return (kind, stop)

end Lex

end TwigLint.Yaml
