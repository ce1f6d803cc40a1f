import TwigLint.Number.Numeral
import TwigLint.Text.Pattern.Reader
import TwigLint.Text.Quoted
import TwigLint.Timestamp

/-! # Revisions

A revision names a commit: a reference, followed by parts that go from a commit to another.  A tilde
goes back some generations, a caret goes to a parent or to a commit with a message.  Parts with an
at sign or a colon are understood and have no effect on the commit.
-/

namespace TwigLint

namespace Revision

/-! ## Pieces -/

inductive Mark where
  | colon
  | tilde
  | caret
  | dot
  | slash
  | openBrace
  | closeBrace
  | minus
  | at
  | exclamation
  /-- White space, control characters and those of patterns, which no name has. -/
  | forbidden
  | word
  | number
  | other
  deriving DecidableEq, Repr

/-- A character with a mark of its own, or a run of letters or of digits. -/
structure Piece where
  mark : Mark
  text : Text
  deriving DecidableEq, Repr

/-- The characters with a mark of their own. -/
def marks : List (Char × Mark) :=
  [(':', .colon), ('~', .tilde), ('^', .caret), ('.', .dot), ('/', .slash), ('\x7b', .openBrace),
    ('\x7d', .closeBrace), ('-', .minus), ('@', .at), ('!', .exclamation), ('\\', .forbidden),
    ('?', .forbidden), ('*', .forbidden), ('[', .forbidden)]

/-- The mark of a character; those beyond ASCII count as letters. -/
def markOf (c : Nat) : Mark :=
  match marks.find? (·.1.toNat == c) with
  | some (_, m) => m
  | none =>
    if Text.isSpaceCode c || c < 0x20 || (0x7f ≤ c && c < 0xa0) then .forbidden
    else if 0x30 ≤ c && c ≤ 0x39 then .number
    else if 0xa0 ≤ c || Text.isLetter c.toUInt8 then .word
    else .other

/-- Puts a character in front of pieces. -/
def addUnit (u : Text.Unit8 × Text) (ps : List Piece) : List Piece :=
  let mark := match u.1 with
    | .char c => markOf c
    | .stray _ => .other
  match ps with
  | p :: rest =>
    if p.mark = mark && (mark = .word || mark = .number) then ⟨mark, u.2 ++ p.text⟩ :: rest
    else ⟨mark, u.2⟩ :: ps
  | [] => [⟨mark, u.2⟩]

/-- The pieces of a text. -/
def pieces (t : Text) : List Piece := (Text.units t).foldr addUnit []

/-! ## Parts -/

inductive Part where
  | reference (name : Text)
  /-- The place where a reference was at some time, or some moves ago. -/
  | atDate
  | atMove
  | atCheckout
  /-- The branch that a reference follows, or to which it is sent. -/
  | atFollowed
  | atPushed
  | generations (n : Nat)
  | parent (n : Nat)
  /-- The latest ancestor with a message in which a pattern occurs, or does not; `written` is the
  text of the pattern. -/
  | message (written : Text) (pattern : Pattern) (negated : Bool)
  | type
  | search
  | path
  | stagedPath
  deriving DecidableEq, Repr

/-- Why a text is no revision. -/
inductive Fault where
  | malformed (reason : Text)
  | badNumber (t : Text) (fault : Numeral.IntFault)
  deriving DecidableEq, Repr

def Fault.message : Fault → Text
  | malformed reason => "Revision invalid : " ++ reason
  | badNumber t fault => "strconv.Atoi: parsing " ++ t.quoted ++ ": " ++ fault.message

/-- A part read from pieces, and the rest of them. -/
abbrev Reading := Except Fault (Part × List Piece)

/-- A number of 64 bits. -/
def number (t : Text) : Except Fault Nat := do
  let n ← (Numeral.readInt t).mapError (.badNumber t)
  return n.toNat

/-- Why a piece may not follow `before`, what was read of a name; `last` is its last mark.  No piece
stands for the end of the name. -/
def nameFault? (before : Text) (last : Option Mark) (p : Option Piece) : Option Text :=
  let mark := p.map (·.mark)
  let shown : Text := (p.map (·.text)).getD []
  let isOver := p.isNone
  if mark = some .forbidden then some ("must not contains \"" ++ shown ++ "\"")
  else if (mark = some .dot || mark = some .slash) && before.isEmpty then
    some ("must not start with \"" ++ shown ++ "\"")
  else if last = some .slash && isOver then some "must not end with \"/\""
  else if last = some .dot && isOver then some "must not end with \".\""
  else if mark = some .dot && last = some .slash then some "must not contains \"/.\""
  else if last = some .dot && mark = some .dot then some "must not contains \"..\""
  else if last = some .slash && mark = some .slash then some "must not contains consecutively \"/\""
  else if (mark = some .slash || isOver) && before.endsWith ".lock" then
    some "cannot end with .lock"
  else none

/-- The mark starts a part behind a name. -/
def endsName : Mark → Bool
  | .at | .colon | .tilde | .caret => true
  | _ => false

/-- A name, read onto what was read of it. -/
def name (before : Text) (last : Option Mark) : List Piece → Reading
  | [] =>
    match nameFault? before last none with
    | some reason => .error (.malformed reason)
    | none => .ok (.reference before, [])
  | p :: rest =>
    let isOver := endsName p.mark
    match nameFault? before last (if isOver then none else some p) with
    | some reason => .error (.malformed reason)
    | none =>
      if isOver then .ok (.reference before, p :: rest)
      else name (before ++ p.text) (some p.mark) rest

/-- The text of pieces. -/
def textOf (ps : List Piece) : Text := ps.flatMap (·.text)

/-- The mark of the piece at a place. -/
def markAt (ps : List Piece) (i : Nat) : Option Mark := ps[i]?.map (·.mark)

/-- A date with a time of day in universal time. -/
def isDate (t : Text) : Bool :=
  t.endsWith "Z" && Text.startsWith (t.drop 10) "T" && (Timestamp.read? t).isSome

/-- A date up to a brace, read onto its first piece. -/
def date (first : Text) (ps : List Piece) : Reading :=
  let inside := first ++ textOf (ps.takeWhile (·.mark != .closeBrace))
  match ps.dropWhile (·.mark != .closeBrace) with
  | [] => .error (.malformed "missing \"\x7d\" in @\x7b<data>\x7d structure")
  | _ :: rest =>
    if isDate inside then .ok (.atDate, rest)
    else .error (.malformed ("wrong date \"" ++ inside ++
      "\" must fit ISO-8601 format : 2006-01-02T15:04:05Z"))

/-- What stands between braces behind an at sign. -/
def atBraces (ps : List Piece) : Reading :=
  match ps with
  | p :: q :: rest =>
    let closed := q.mark == .closeBrace
    if p.mark == .word && closed && (p.text == "u" || p.text.startsWith "up") then
      .ok (.atFollowed, rest)
    else if p.mark == .word && closed && p.text == "push" then .ok (.atPushed, rest)
    else if p.mark == .number && closed then do
      let _ ← number p.text
      return (.atMove, rest)
    else if p.mark == .minus && q.mark == .number then do
      let _ ← number q.text
      if markAt rest 0 != some .closeBrace then
        throw (.malformed "missing \"\x7d\" in @\x7b-n\x7d structure")
      return (.atCheckout, rest.drop 1)
    else date p.text (q :: rest)
  | _ => date [] []

/-- What follows an at sign; alone it stands for the head. -/
def atPart (ps : List Piece) : Reading :=
  match ps with
  | p :: rest => if p.mark == .openBrace then atBraces rest else .ok (.reference "HEAD", ps)
  | [] => .ok (.reference "HEAD", [])

/-- What follows a tilde. -/
def tildePart (ps : List Piece) : Reading :=
  match ps with
  | p :: rest =>
    if p.mark == .number then do return (.generations (← number p.text), rest)
    else .ok (.generations 1, ps)
  | [] => .ok (.generations 1, [])

/-- The words for types of objects. -/
def types : List Text := ["commit", "tree", "blob", "tag", "object"]

def reserved : Fault :=
  .malformed ("revision suffix brace component sequences starting with \"/!\" others than those " ++
    "defined are reserved")

/-- The pattern of a text. -/
def patternOf (t : Text) : Except Fault Pattern :=
  (Pattern.read t).mapError fun f =>
    .malformed ("revision suffix brace component, " ++ f.message)

/-- What stands between braces behind a caret: a type, or a slash and a pattern, which is read onto
`pattern`. -/
def caretBraces (pattern : Text) (negated isFirst : Bool) : (n : Nat) → List Piece → Reading
  | 0, _ => .error (.malformed "missing \"\x7d\" in ^\x7b<data>\x7d structure")
  | n + 1, ps =>
    let mark := markAt ps 0
    let next := markAt ps 1
    let text := (ps.head?.map (·.text)).getD []
    let isBare := pattern.isEmpty
    if mark = some .word && next = some .closeBrace && types.contains text then
      .ok (.type, ps.drop 2)
    else if isBare && mark = some .closeBrace then .ok (.type, ps.drop 2)
    else if isBare && mark = some .exclamation then
      if next = some .exclamation then caretBraces text negated false n (ps.drop 2)
      else if next = some .minus then caretBraces [] true false n (ps.drop 2)
      else .error reserved
    else if isBare && mark = some .slash then caretBraces [] negated false n (ps.drop 1)
    else if mark != some .slash && isFirst then
      .error (.malformed ("\"" ++ text ++ "\" is not a valid revision suffix brace component"))
    else if mark = none then
      .error (.malformed "missing \"\x7d\" in ^\x7b<data>\x7d structure")
    else if mark = some .closeBrace then do
      return (.message pattern (← patternOf pattern) negated, ps.drop 1)
    else caretBraces (pattern ++ text) negated false n (ps.drop 1)

/-- What follows a caret. -/
def caretPart (ps : List Piece) : Reading :=
  match ps with
  | p :: rest =>
    if p.mark == .openBrace then caretBraces [] false true (rest.length + 1) rest
    else if p.mark == .number then do
      let n ← number p.text
      if 2 < n then
        throw (.malformed ("\"" ++ p.text ++ "\" found must be 0, 1 or 2 after \"^\""))
      return (.parent n, rest)
    else .ok (.parent 1, ps)
  | [] => .ok (.parent 1, [])

/-- The pattern behind a colon and a slash, read onto `pattern`.  An exclamation mark is written
twice, and one in front of a minus asks for messages without the pattern. -/
def searchText (pattern : Text) : (n : Nat) → List Piece → Except Fault Text
  | 0, _ => .ok pattern
  | _, [] => .ok pattern
  | n + 1, p :: rest =>
    let next := markAt rest 0
    if p.mark != .exclamation then searchText (pattern ++ p.text) n rest
    else if next = some .exclamation then searchText (pattern ++ p.text) n (rest.drop 1)
    else if !pattern.isEmpty then searchText (pattern ++ p.text) n rest
    else if next = some .minus then searchText pattern n (rest.drop 1)
    else .error reserved

/-- What follows a colon; it takes all that is left. -/
def colonPart (ps : List Piece) : Reading := do
  match ps with
  | p :: rest =>
    if p.mark == .slash then
      let _ ← patternOf (← searchText [] rest.length rest)
      return (.search, [])
    else if p.mark == .number && markAt rest 0 = some .colon then
      let _ ← number p.text
      return (.stagedPath, [])
    else return (.path, [])
  | [] => return (.path, [])

/-- The parts of a revision; `n` bounds their number. -/
def parts : (n : Nat) → List Piece → Except Fault (List Part)
  | 0, _ => .ok []
  | _, [] => .ok []
  | n + 1, p :: rest => do
    let (part, rest) ← match p.mark with
      | .at => atPart rest
      | .tilde => tildePart rest
      | .caret => caretPart rest
      | .colon => colonPart rest
      | _ => name [] none (p :: rest)
    return part :: (← parts n rest)

/-! ## Order of parts -/

/-- The message for a part with an at sign that stands in the wrong place. -/
def misplacedAt (forms : List Text) : Text :=
  "\"@\" statement is not valid, could be : " ++ Text.join ", " forms

/-- The message for a part with a colon that stands in the wrong place. -/
def misplacedColon (form : Text) : Text := "\":\" statement is not valid, could be : " ++ form

/-- Why a part cannot stand at a place: `isFirst` and `isLast` tell where, `count` how many parts
there are, and `named` that the first of them is a reference. -/
def placeFault? (isFirst isLast named : Bool) (count : Nat) (p : Part) : Option Text :=
  let isAlone := count == 1
  let refused (accepted : Bool) (reason : Text) : Option Text :=
    if accepted then none else some reason
  let behindName := isAlone || (named && count == 2)
  match p with
  | .reference _ => refused isFirst "reference must be defined once at the beginning"
  | .atDate => refused behindName
      (misplacedAt ["<refname>@\x7b<ISO-8601 date>\x7d", "@\x7b<ISO-8601 date>\x7d"])
  | .atMove => refused behindName (misplacedAt ["<refname>@\x7b<n>\x7d", "@\x7b<n>\x7d"])
  | .atCheckout => refused isAlone (misplacedAt ["@\x7b-<n>\x7d"])
  | .atFollowed => refused behindName (misplacedAt ["<refname>@\x7bu\x7d", "@\x7bu\x7d"])
  | .atPushed => refused behindName (misplacedAt ["<refname>@\x7bpush\x7d", "@\x7bpush\x7d"])
  | .generations _ | .parent _ | .message .. =>
    refused named "\"~\" or \"^\" statement must have a reference defined at the beginning"
  | .type => none
  | .search => refused isAlone (misplacedColon ":/<regexp>")
  | .path => refused ((isLast && named) || isAlone) (misplacedColon "<revision>:<path>")
  | .stagedPath => refused isAlone (misplacedColon ":<n>:<path>")

/-- The part is a reference. -/
def Part.isReference : Part → Bool
  | reference _ => true
  | _ => false

/-- Why parts cannot follow each other. -/
def orderFault? (ps : List Part) : Option Text :=
  let named := ps.head?.any Part.isReference
  ps.zipIdx.findSome? fun (p, i) =>
    placeFault? (i == 0) (i + 1 == ps.length) named ps.length p

/-- The parts of a revision. -/
def parse (t : Text) : Except Fault (List Part) := do
  let ps := pieces t
  let parts ← parts ps.length ps
  match orderFault? parts with
  | some reason => throw (.malformed reason)
  | none => return parts

end Revision

end TwigLint
