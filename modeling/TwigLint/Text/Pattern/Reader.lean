import TwigLint.Text.Pattern

/-! # Reading regular expressions

The written form of a pattern is read from left to right, so the first fault in it is the one that
is reported, with the part of the text that shows it.
-/

namespace TwigLint

namespace Pattern

/-! ## Faults -/

inductive FaultKind where
  | badRange
  | badEscape
  | badGroupName
  | badGroup
  | doubleRepeat
  | badCount
  | notUtf8
  | openClass
  | openGroup
  | noOperand
  | lastBackslash
  | strayParenthesis
  deriving DecidableEq, Repr

def FaultKind.message : FaultKind → Text
  | badRange => "invalid character class range"
  | badEscape => "invalid escape sequence"
  | badGroupName => "invalid named capture"
  | badGroup => "invalid or unsupported Perl syntax"
  | doubleRepeat => "invalid nested repetition operator"
  | badCount => "invalid repeat count"
  | notUtf8 => "invalid UTF-8"
  | openClass => "missing closing ]"
  | openGroup => "missing closing )"
  | noOperand => "missing argument to repetition operator"
  | lastBackslash => "trailing backslash at end of expression"
  | strayParenthesis => "unexpected )"

/-- Why a text is no pattern, and the part of it that shows it. -/
structure Fault where
  kind : FaultKind
  shown : Text
  deriving DecidableEq, Repr

def Fault.message (f : Fault) : Text :=
  "error parsing regexp: " ++ f.kind.message ++ ": \x60" ++ f.shown ++ "\x60"

/-- What was read of a text of which the rest is left. -/
def upTo (t rest : Text) : Text := t.take (t.length - rest.length)

/-- The first character of a text, and the rest.  At the end of the text there is none. -/
def nextChar (t : Text) : Except Fault (Option Nat × Text) :=
  match t with
  | [] => .ok (none, [])
  | a :: rest =>
    match Text.firstUnit a rest with
    | (.char c, n) => .ok (some c, rest.drop n)
    | (.stray _, _) => .error ⟨.notUtf8, t⟩

/-- A text of well-formed characters. -/
def checkUtf8 (t : Text) : Except Fault Unit :=
  if t.isUtf8 then .ok () else .error ⟨.notUtf8, t⟩

/-! ## Escapes -/

def isOctal (b : UInt8) : Bool := '0' ≤ b && b ≤ '7'

/-- The value of a hexadecimal digit. -/
def hexCode? (c : Option Nat) : Option Nat := do
  let c ← c
  if c < 0x80 then Text.hexValue? c.toUInt8 else none

/-- The number in braces behind `\x`, read onto `n` digits with a value, and the text where it
ends or stops. -/
def bracedHex : (fuel n value : Nat) → Text → Except Fault (Option Nat × Text)
  | 0, _, _, t => .ok (none, t)
  | _, _, _, [] => .ok (none, [])
  | fuel + 1, n, value, t => do
    let (c, rest) ← nextChar t
    if c == some '\x7d'.toNat then return (if n == 0 then none else some value, rest)
    else
      match hexCode? c with
      | none => return (none, rest)
      | some d =>
        let value := 16 * value + d
        if lastCode < value then return (none, rest) else bracedHex fuel (n + 1) value rest

/-- What `\x` stands for. -/
def hexEscape (t : Text) : Except Fault (Option Nat × Text) := do
  if t.isEmpty then return (none, t)
  let (c, rest) ← nextChar t
  if c == some '\x7b'.toNat then bracedHex rest.length 0 0 rest
  else
    let (d, rest) ← nextChar rest
    return (do return 16 * (← hexCode? c) + (← hexCode? d), rest)

/-- What the letters behind a backslash stand for. -/
def controls : List (Char × Nat) :=
  [('a', 7), ('f', 12), ('n', 10), ('r', 13), ('t', 9), ('v', 11)]

/-- The character that a backslash and what follows it stand for. -/
def escape (t : Text) : Except Fault (Nat × Text) := do
  let start := t.drop 1
  if start.isEmpty then throw ⟨.lastBackslash, []⟩
  let (c?, rest) ← nextChar start
  let c := c?.getD 0
  let b := c.toUInt8
  let refused (rest : Text) : Except Fault (Nat × Text) := .error ⟨.badEscape, upTo t rest⟩
  if 0x80 ≤ c then refused rest
  else if isOctal b && (b == '0' || rest.head?.any isOctal) then
    let more := (rest.take 2).takeWhile isOctal
    return (more.foldl (fun n d => 8 * n + (d.toNat - 0x30)) (c - 0x30), rest.drop more.length)
  else if b == 'x' then
    match ← hexEscape rest with
    | (some n, rest) => return (n, rest)
    | (none, rest) => refused rest
  else
    match controls.find? (·.1.toNat == c) with
    | some (_, n) => return (n, rest)
    | none => if Text.isLetter b || Text.isDigit b then refused rest else return (c, rest)

/-! ## Classes -/

/-- The classes of a letter behind a backslash; a capital stands for all other characters. -/
def letterClass? (b : UInt8) : Option Ranges :=
  let ranges? : Option Ranges := match Char.ofNat (Text.toLower b).toNat with
    | 'd' => some digits
    | 's' => some blanks
    | 'w' => some wordChars
    | _ => none
  ranges?.map fun rs => if Text.isUpper b then complement 0 rs else rs

/-- The classes with names of their own in brackets and colons. -/
def namedClasses : List (String × Ranges) :=
  [("alnum", [(0x30, 0x39), (0x41, 0x5a), (0x61, 0x7a)]), ("alpha", [(0x41, 0x5a), (0x61, 0x7a)]),
    ("ascii", [(0, 0x7f)]), ("blank", [(0x09, 0x09), (0x20, 0x20)]),
    ("cntrl", [(0, 0x1f), (0x7f, 0x7f)]), ("digit", digits), ("graph", [(0x21, 0x7e)]),
    ("lower", [(0x61, 0x7a)]), ("print", [(0x20, 0x7e)]),
    ("punct", [(0x21, 0x2f), (0x3a, 0x40), (0x5b, 0x60), (0x7b, 0x7e)]),
    ("space", [(0x09, 0x0d), (0x20, 0x20)]), ("upper", [(0x41, 0x5a)]), ("word", wordChars),
    ("xdigit", [(0x30, 0x39), (0x41, 0x46), (0x61, 0x66)])]

/-- The class with a name, without its brackets; a caret in front stands for all others. -/
def namedClass? (name : Text) : Option Ranges :=
  let negated := name.startsWith "^"
  let bare := if negated then name.drop 1 else name
  (namedClasses.find? fun (n, _) => Text.ofString n == bare).map fun (_, rs) =>
    if negated then complement 0 rs else rs

/-- The general categories of characters, with their members in ASCII. -/
def categories : List (String × Ranges) :=
  [("any", [(0, lastCode)]), ("ascii", [(0, 0x7f)]), ("c", [(0, 0x1f), (0x7f, 0x9f)]),
    ("cc", [(0, 0x1f), (0x7f, 0x9f)]), ("cf", []), ("co", []), ("cs", []),
    ("l", [(0x41, 0x5a), (0x61, 0x7a)]), ("ll", [(0x61, 0x7a)]), ("lm", []), ("lo", []), ("lt", []),
    ("lu", [(0x41, 0x5a)]), ("m", []), ("mc", []), ("me", []), ("mn", []), ("n", digits),
    ("nd", digits), ("nl", []), ("no", []),
    ("p", [(0x21, 0x23), (0x25, 0x2a), (0x2c, 0x2f), (0x3a, 0x3b), (0x3f, 0x40), (0x5b, 0x5d),
      (0x5f, 0x5f), (0x7b, 0x7b), (0x7d, 0x7d)]),
    ("pc", [(0x5f, 0x5f)]), ("pd", [(0x2d, 0x2d)]),
    ("pe", [(0x29, 0x29), (0x5d, 0x5d), (0x7d, 0x7d)]), ("pf", []), ("pi", []),
    ("po", [(0x21, 0x23), (0x25, 0x27), (0x2a, 0x2a), (0x2c, 0x2c), (0x2e, 0x2f), (0x3a, 0x3b),
      (0x3f, 0x40), (0x5c, 0x5c)]),
    ("ps", [(0x28, 0x28), (0x5b, 0x5b), (0x7b, 0x7b)]),
    ("s", [(0x24, 0x24), (0x2b, 0x2b), (0x3c, 0x3e), (0x5e, 0x5e), (0x60, 0x60), (0x7c, 0x7c),
      (0x7e, 0x7e)]),
    ("sc", [(0x24, 0x24)]), ("sk", [(0x5e, 0x5e), (0x60, 0x60)]),
    ("sm", [(0x2b, 0x2b), (0x3c, 0x3e), (0x7c, 0x7c), (0x7e, 0x7e)]), ("so", []),
    ("z", [(0x20, 0x20)]), ("zl", []), ("zp", []), ("zs", [(0x20, 0x20)]),
    ("latin", [(0x41, 0x5a), (0x61, 0x7a)]), ("greek", []), ("cyrillic", []), ("han", [])]

/-- The category with a name; the case of letters does not count. -/
def category? (name : Text) : Option Ranges :=
  (categories.find? fun (n, _) => Text.ofString n == name.map Text.toLower).map Prod.snd

/-- The class of a category at the start of a text, which is written behind `\p`. -/
def categoryClass (t : Text) : Except Fault (Option (Ranges × Text)) := do
  let letter := (t.drop 1).head?
  if t.head? != some '\\' || (letter != some 'p' && letter != some 'P') then return none
  let inside := t.drop 2
  let (c, rest) ← nextChar inside
  let (name, rest) ←
    if c != some '\x7b'.toNat then pure (upTo inside rest, rest)
    else
      match Text.find? "\x7d" (inside.drop 1) with
      | none => do
        checkUtf8 t
        throw ⟨.badRange, t⟩
      | some (name, rest) => do
        checkUtf8 name
        pure (name, rest.drop 1)
  let negated := name.startsWith "^"
  match category? (if negated then name.drop 1 else name) with
  | none => throw ⟨.badRange, upTo t rest⟩
  | some rs => return some (if negated != (letter == some 'P') then complement 0 rs else rs, rest)

/-- The class of a letter at the start of a text. -/
def letterClass : Text → Option (Ranges × Text)
  | b :: letter :: rest => if b == '\\' then (letterClass? letter).map (·, rest) else none
  | _ => none

/-- The class with a name at the start of a text inside brackets. -/
def bracketClass (t : Text) : Except Fault (Option (Ranges × Text)) :=
  if t.startsWith "[:" && 2 < t.length then
    match Text.find? ":]" (t.drop 2) with
    | none => .ok none
    | some (name, rest) =>
      match namedClass? name with
      | none => .error ⟨.badRange, "[:" ++ name ++ ":]"⟩
      | some rs => .ok (some (rs, rest.drop 2))
  else .ok none

/-- A character inside brackets; `whole` is the text from the bracket on. -/
def classChar (whole t : Text) : Except Fault (Nat × Text) :=
  match t with
  | [] => .error ⟨.openClass, whole⟩
  | b :: _ =>
    if b == '\\' then escape t
    else do
      let (c, rest) ← nextChar t
      return (c.getD 0, rest)

/-- A range of characters inside brackets, or one character. -/
def classRange (whole t : Text) : Except Fault (Ranges × Text) := do
  let (lo, rest) ← classChar whole t
  if rest.head? == some '-' && 2 ≤ rest.length && (rest.drop 1).head? != some ']' then
    let (hi, rest) ← classChar whole (rest.drop 1)
    if hi < lo then throw ⟨.badRange, upTo t rest⟩
    return ([(lo, hi)], rest)
  return ([(lo, lo)], rest)

/-- One entry of a class in brackets. -/
def classEntry (whole t : Text) : Except Fault (Ranges × Text) := do
  if let some found ← bracketClass t then return found
  if let some found ← categoryClass t then return found
  if let some found := letterClass t then return found
  classRange whole t

/-- The entries of a class up to its closing bracket; the first may be such a bracket. -/
def classEntries (whole : Text) : (n : Nat) → (isFirst : Bool) → Text →
    Except Fault (Ranges × Text)
  | 0, _, _ => .error ⟨.openClass, whole⟩
  | n + 1, isFirst, t => do
    if t.head? == some ']' && !isFirst then return ([], t.drop 1)
    let (rs, rest) ← classEntry whole t
    let (more, rest) ← classEntries whole n false rest
    return (rs ++ more, rest)

/-! ## Groups -/

/-- How the rest of a group is read. -/
structure Flags where
  folded : Bool
  /-- The edges of lines count as edges of the text. -/
  lines : Bool
  /-- A dot stands for line breaks too. -/
  dotAll : Bool
  deriving DecidableEq, Repr

/-- A group that is not closed yet: what was read of it, and the flags outside. -/
structure Level where
  outside : Flags
  /-- The alternatives before the current one. -/
  others : Option Pattern
  /-- The parts of the current alternative, last first. -/
  parts : List Pattern
  deriving DecidableEq, Repr

/-- The pattern of a group. -/
def Level.pattern (l : Level) : Pattern :=
  match l.others with
  | none => sequence l.parts
  | some p => .either p (sequence l.parts)

/-- What was read of a text: the group at hand, and the groups around it. -/
structure Reading where
  flags : Flags
  level : Level
  around : List Level
  /-- The text from the repetition on with which the last part ended, if it did. -/
  repeated : Text
  deriving DecidableEq, Repr

namespace Reading

def start : Reading :=
  let flags : Flags := ⟨false, false, false⟩
  ⟨flags, ⟨flags, none, []⟩, [], []⟩

def add (r : Reading) (p : Pattern) : Reading :=
  { r with level := { r.level with parts := p :: r.level.parts } }

def addChar (r : Reading) (c : Nat) : Reading := r.add (.chars false r.flags.folded [(c, c)])

/-- Opens a group, inside of which there are other flags. -/
def enter (r : Reading) (flags : Flags) : Reading :=
  { r with flags, level := ⟨r.flags, none, []⟩, around := r.level :: r.around }

/-- Ends an alternative. -/
def branch (r : Reading) : Reading :=
  { r with level := { r.level with others := some r.level.pattern, parts := [] } }

end Reading

/-- The flags after one of their letters, set or taken away. -/
def Flags.set (f : Flags) (c : Nat) (value : Bool) : Option Flags :=
  match Char.ofNat c with
  | 'i' => some { f with folded := value }
  | 'm' => some { f with lines := value }
  | 's' => some { f with dotAll := value }
  | 'U' => some f
  | _ => none

/-- The flags between a question mark and the colon or parenthesis that ends them.  A minus takes
away the flags behind it, of which there has to be one; `seen` tells that there was.  What ends
them tells whether a group starts. -/
def groupFlags (whole : Text) (flags : Flags) : (n : Nat) → (value seen : Bool) → Text →
    Except Fault (Flags × Bool × Text)
  | 0, _, _, t => .error ⟨.badGroup, upTo whole t⟩
  | _, _, _, [] => .error ⟨.badGroup, whole⟩
  | n + 1, value, seen, t => do
    let (c?, rest) ← nextChar t
    let c := c?.getD 0
    let refused : Except Fault (Flags × Bool × Text) := .error ⟨.badGroup, upTo whole rest⟩
    if c == ':'.toNat || c == ')'.toNat then
      if !value && !seen then refused else return (flags, c == ':'.toNat, rest)
    else if c == '-'.toNat then
      if value then groupFlags whole flags n false false rest else refused
    else
      match flags.set c value with
      | some flags => groupFlags whole flags n value true rest
      | none => refused

/-- Reads what starts with a parenthesis and a question mark. -/
def markedGroup (r : Reading) (t : Text) : Except Fault (Reading × Text) := do
  let marked := t.startsWith "(?P<" && 4 < t.length
  if marked || (t.startsWith "(?<" && 3 < t.length) then
    match Text.find? ">" t with
    | none =>
      checkUtf8 t
      throw ⟨.badGroupName, t⟩
    | some (before, rest) =>
      let name := before.drop (if marked then 4 else 3)
      checkUtf8 name
      if name.isEmpty || !name.all Text.isWordByte then throw ⟨.badGroupName, before ++ ">"⟩
      return (r.enter r.flags, rest.drop 1)
  else
    let (flags, opens, rest) ← groupFlags t r.flags t.length true false (t.drop 2)
    return (if opens then r.enter flags else { r with flags }, rest)

/-- Closes a group. -/
def leave (whole : Text) (r : Reading) : Except Fault Reading :=
  match r.around with
  | [] => .error ⟨.strayParenthesis, whole⟩
  | outer :: around =>
    .ok (Reading.add { r with flags := r.level.outside, level := outer, around } r.level.pattern)

/-! ## Repetitions -/

/-- The most that a counted repetition may repeat. -/
def mostRepeats : Nat := 1000

/-- Repeats the last part; `before` is the text from the repetition on, `after` the text behind
it. -/
def repeatLast (r : Reading) (least : Nat) (most : Option Nat) (before after : Text) :
    Except Fault (Reading × Text) := do
  let after := after.dropPrefix "?"
  if !r.repeated.isEmpty then throw ⟨.doubleRepeat, upTo r.repeated after⟩
  match r.level.parts with
  | [] => throw ⟨.noOperand, upTo before after⟩
  | p :: parts =>
    let p := Pattern.times least most p
    if 2 ≤ most.getD least && !p.isRepeatedUpTo mostRepeats then
      throw ⟨.badCount, upTo before after⟩
    return ({ r with level := { r.level with parts := p :: parts }, repeated := before }, after)

/-- A number without needless zeros. -/
def count? (t : Text) : Option (Nat × Text) :=
  let ds := t.takeWhile Text.isDigit
  if ds.isEmpty || (ds.head? == some '0' && 1 < ds.length) then none
  else some (Text.digitsValue 0 ds, t.drop ds.length)

/-- The counts in braces at the start of a text. -/
def counts? (t : Text) : Option (Nat × Option Nat × Text) := do
  let (least, rest) ← count? (t.drop 1)
  let (most, rest) ←
    if rest.head? == some ',' then
      if (rest.drop 1).head? == some '\x7d' then some (none, rest.drop 1)
      else (count? (rest.drop 1)).map fun (n, rest) => (some n, rest)
    else some (some least, rest)
  if rest.head? == some '\x7d' then some (least, most, rest.drop 1) else none

/-- Reads a brace, which counts repetitions or stands for itself. -/
def brace (r : Reading) (t : Text) : Except Fault (Reading × Text) :=
  match counts? t with
  | none => .ok (r.addChar '\x7b'.toNat, t.drop 1)
  | some (least, most, after) =>
    if mostRepeats < least || most.any fun n => mostRepeats < n || n < least then
      .error ⟨.badCount, upTo t after⟩
    else repeatLast r least most t after

/-! ## Texts -/

/-- Adds the characters of a text as they are. -/
def addText (r : Reading) (t : Text) : Except Fault Reading := do
  match (Text.units t).find? fun u => u.1 matches .stray _ with
  | some (_, b) => throw ⟨.notUtf8, b⟩
  | none => return (codes t).foldl Reading.addChar r

/-- Reads a backslash and what follows it. -/
def backslash (r : Reading) (t : Text) : Except Fault (Reading × Text) := do
  let rest := t.drop 2
  match (t.drop 1).head?.map fun b => Char.ofNat b.toNat with
  | some 'A' => return (r.add (.edge .textStart), rest)
  | some 'z' => return (r.add (.edge .textEnd), rest)
  | some 'b' => return (r.add (.edge .wordEdge), rest)
  | some 'B' => return (r.add (.edge .noWordEdge), rest)
  | some 'C' => throw ⟨.badEscape, t.take 2⟩
  | some 'Q' =>
    match Text.find? "\\E" rest with
    | some (quoted, rest) => return (← addText r quoted, rest.drop 2)
    | none => return (← addText r rest, [])
  | _ =>
    let found ← categoryClass t
    match found <|> letterClass t with
    | some (rs, rest) => return (r.add (.chars false r.flags.folded rs), rest)
    | none =>
      let (c, rest) ← escape t
      return (r.addChar c, rest)

/-- Reads the next part of a text. -/
def step (whole : Text) (before : Reading) (t : Text) : Except Fault (Reading × Text) := do
  let r := { before with repeated := [] }
  let rest := t.drop 1
  match t.head?.map fun b => Char.ofNat b.toNat with
  | none => return (r, [])
  | some '(' => if rest.head? == some '?' then markedGroup r t else return (r.enter r.flags, rest)
  | some '|' => return (r.branch, rest)
  | some ')' => return (← leave whole r, rest)
  | some '^' => return (r.add (.edge (if r.flags.lines then .lineStart else .textStart)), rest)
  | some '$' => return (r.add (.edge (if r.flags.lines then .lineEnd else .textEnd)), rest)
  | some '.' => return (r.add (.chars true false (if r.flags.dotAll then [] else [(10, 10)])), rest)
  | some '[' =>
    let negated := rest.head? == some '^'
    let (rs, rest) ← classEntries t t.length true (if negated then rest.drop 1 else rest)
    return (r.add (.chars negated r.flags.folded rs), rest)
  | some '*' => repeatLast before 0 none t rest
  | some '+' => repeatLast before 1 none t rest
  | some '?' => repeatLast before 0 (some 1) t rest
  | some '\x7b' => if (counts? t).isSome then brace before t else brace r t
  | some '\\' => backslash r t
  | _ =>
    let (c, rest) ← nextChar t
    return (r.addChar (c.getD 0), rest)

/-- Reads a text to its end; `n` bounds the number of its parts. -/
def steps (whole : Text) : (n : Nat) → Reading → Text → Except Fault Reading
  | 0, r, _ => .ok r
  | _, r, [] => .ok r
  | n + 1, r, t => do
    let (r, rest) ← step whole r t
    steps whole n r rest

/-- The pattern that a text describes. -/
def read (t : Text) : Except Fault Pattern := do
  let r ← steps t t.length .start t
  if r.around.isEmpty then return r.level.pattern else throw ⟨.openGroup, t⟩

end Pattern

end TwigLint
