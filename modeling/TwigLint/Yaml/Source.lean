import TwigLint.Yaml.Token

/-! # Characters of a text

The bytes of a text become characters in portions, as far as the reader looks ahead.  A byte that
does not belong to a character is therefore noticed only when its portion is reached.
-/

namespace TwigLint.Yaml

def isBlank (c : Char) : Bool := c == ' ' || c == '\t'

def isBreak (c : Char) : Bool :=
  c == '\n' || c == '\r' || c == '\u0085' || c == '\u2028' || c == '\u2029'

/-- A line break that takes more than one byte. -/
def isWideBreak (c : Char) : Bool := c == '\u0085' || c == '\u2028' || c == '\u2029'

/-- Letters, digits, the underscore and the hyphen. -/
def isWordChar (c : Char) : Bool := c.isAlphanum || c == '_' || c == '-'

def isHexChar (c : Char) : Bool :=
  c.isDigit || ('a' ≤ c && c ≤ 'f') || ('A' ≤ c && c ≤ 'F')

/-- Value of a hexadecimal digit. -/
def hexCharValue (c : Char) : Nat :=
  if c.isDigit then c.toNat - 48 else if 'a' ≤ c then c.toNat - 87 else c.toNat - 55

/-- A blank, a line break or the end of the text. -/
def isGap : Option Char → Bool
  | none => true
  | some c => isBlank c || isBreak c

/-- A line break or the end of the text. -/
def isLineEnd : Option Char → Bool
  | none => true
  | some c => isBreak c

/-- How a line break reads: the two Unicode separators stay as they are. -/
def breakText (c : Char) : Char := if c == '\u2028' || c == '\u2029' then c else '\n'

/-- The bytes of a sequence of characters. -/
def textOf (cs : List Char) : Text := Text.ofString (String.ofList cs)

/-- The mark in front of some texts that tells the order of their bytes. -/
def byteOrderMark : Char := '\ufeff'

/-- The characters that may stand in a text. -/
def isAllowed (code : Nat) : Bool :=
  code == 0x09 || code == 0x0a || code == 0x0d || (0x20 ≤ code && code ≤ 0x7e) || code == 0x85 ||
    (0xa0 ≤ code && code ≤ 0xd7ff) || (0xe000 ≤ code && code ≤ 0xfffd) ||
    (0x10000 ≤ code && code ≤ 0x10ffff)

/-! ## Decoding -/

/-- What the next bytes are. -/
inductive Decoded where
  | char (c : Char) (rest : Text)
  /-- The start of a character whose other bytes are not at hand. -/
  | unfinished
  | refused (problem : Problem)

/-- Number of bytes of a character that starts with `a`, zero if none does. -/
def octets (a : UInt8) : Nat :=
  if a < 0x80 then 1
  else if 0xc0 ≤ a && a < 0xe0 then 2
  else if 0xe0 ≤ a && a < 0xf0 then 3
  else if 0xf0 ≤ a && a < 0xf8 then 4
  else 0

/-- The smallest character for which so many bytes are needed. -/
def leastCode : Nat → Nat
  | 2 => 0x80
  | 3 => 0x800
  | 4 => 0x10000
  | _ => 0

/-- The character that starts with byte `a` before `tail`; `ended` tells that no byte follows. -/
def decodeChar (ended : Bool) (a : UInt8) (tail : Text) : Decoded :=
  let width := octets a
  let more := tail.take (width - 1)
  if width = 0 then .refused .badLeadingOctet
  else if more.length + 1 < width then
    if ended then .refused .incompleteSequence else .unfinished
  else if !more.all Text.isTail then .refused .badTrailingOctet
  else
    let lead := if width = 1 then a.toNat else a.toNat % (1 <<< (7 - width))
    let code := more.foldl (fun n b => 64 * n + b.toNat % 64) lead
    if code < leastCode width then .refused .overlongSequence
    else if (0xd800 ≤ code && code ≤ 0xdfff) || 0x10ffff < code then .refused .notCharacter
    else if !isAllowed code then .refused .controlCharacter
    else .char (Char.ofNat code) (tail.drop (width - 1))

/-- The characters of the bytes at hand, the bytes left over, and the first thing wrong.  `done` is
what has been decoded so far, last character first. -/
def decodeRun (ended : Bool) : Nat → Text → List Char → List Char × Text × Option Problem
  | n + 1, a :: tail, done =>
    match decodeChar ended a tail with
    | .char c rest => decodeRun ended n rest (c :: done)
    | .unfinished => (done.reverse, a :: tail, none)
    | .refused problem => (done.reverse, a :: tail, some problem)
  | _, raw, done => (done.reverse, raw, none)

/-! ## Portions -/

/-- Number of bytes that are looked at together. -/
def portion : Nat := 512

/-- A text that is read from front to back. -/
structure Source where
  /-- Bytes that have not been looked at. -/
  input : Text
  /-- Bytes that have been looked at but not decoded. -/
  raw : Text
  /-- The mark in front of the text has been looked for. -/
  started : Bool
  /-- No further byte follows `raw`. -/
  ended : Bool
  /-- The decoded characters from the cursor on. -/
  rest : List Char
  /-- Number of characters known from the cursor on.  Each look beyond the end of the text counts it
  as one more. -/
  known : Nat
  /-- The characters were last decoded when the cursor stood at a byte order mark. -/
  marked : Bool

namespace Source

/-- A text of which nothing has been read. -/
def ofText (t : Text) : Source := ⟨t, [], false, false, [], 0, false⟩

/-- Looks at further bytes. -/
def more (s : Source) : Source :=
  if s.input.isEmpty then { s with ended := true }
  else
    let room := portion - s.raw.length
    { s with raw := s.raw ++ s.input.take room, input := s.input.drop room }

/-- Drops a byte order mark in front of the text. -/
def start (s : Source) : Source :=
  let s := s.more
  let s := if s.raw.length < 3 && !s.ended then s.more else s
  { s with started := true, raw := s.raw.dropPrefix [0xef, 0xbb, 0xbf] }

/-- Decodes bytes until `n` characters are known, or something is wrong with the bytes. -/
def fill (n : Nat) : Nat → (first : Bool) → Source → Source × Option Problem
  | 0, _, s => (s, none)
  | k + 1, first, s =>
    if n ≤ s.known then (s, none)
    else
      let s := if !first || s.raw.isEmpty then s.more else s
      let (cs, raw, problem?) := decodeRun s.ended s.raw.length s.raw []
      let s := { s with rest := s.rest ++ cs, raw, known := s.known + cs.length }
      match problem? with
      | some problem => (s, some problem)
      | none => if s.ended then ({ s with known := s.known + 1 }, none) else fill n k false s

/-- Makes `n` characters known, as far as the text has that many. -/
def ensure (n : Nat) (s : Source) : Source × Option Problem :=
  if n ≤ s.known then (s, none)
  else
    let s := if s.started then s else s.start
    let (s, problem?) := s.fill n (s.input.length + 2) true
    ({ s with marked := s.rest.head? == some byteOrderMark }, problem?)

/-- The next character. -/
def peek? (s : Source) : Option Char := s.rest.head?

/-- The character `n` places after the next one. -/
def ahead? (s : Source) (n : Nat) : Option Char := s.rest[n]?

/-- The source after `n` characters. -/
def drop (s : Source) (n : Nat) : Source :=
  { s with rest := s.rest.drop n, known := s.known - n }

end Source

end TwigLint.Yaml
