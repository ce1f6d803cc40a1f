import TwigLint.Yaml.Directive
import TwigLint.Yaml.Scalar

/-! # From characters to tokens

Block structure is written by indentation, so the lexer keeps a stack of indentations and opens and
closes blocks with tokens of their own.  A key is recognised only by the colon behind it: every
token that may start a key is remembered, and the key token is inserted in front of it later.
-/

namespace TwigLint.Yaml

/-- Characters within which the colon of a key must follow. -/
def keyReach : Nat := 1024

/-- How deep collections may be nested. -/
def depthLimit : Nat := 10000

/-- The candidate is near enough to become a key: keys stand on one line and are not too long. -/
def KeyCandidate.isNear (k : KeyCandidate) (now : Mark) : Bool :=
  now.line ≤ k.mark.line && now.index ≤ k.mark.index + keyReach

namespace Lex

/-! ## Keys -/

/-- The level of the innermost candidate. -/
def level : Lex Nat := return (← get).candidates.size - 1

/-- The candidate at a level. -/
def candidate (i : Nat) : Lex KeyCandidate :=
  return (← get).candidates[i]?.getD ⟨false, false, 0, .start⟩

/-- Puts another candidate at a level. -/
def setCandidate (i : Nat) (k : KeyCandidate) : Lex Unit :=
  modify fun s => { s with candidates := s.candidates.setIfInBounds i k }

/-- Stops waiting for the colon behind a token. -/
def stopWaiting (number : Nat) : Lex Unit :=
  modify fun s => { s with waiting := s.waiting.erase number }

/-- The candidate at a level may still become a key.  One that is too far away is given up, which is
an error if it had to become a key. -/
def isLive (i : Nat) : Lex Bool := do
  let k ← candidate i
  if !k.possible then return false
  else if k.isNear (← mark) then return true
  else if k.required then refuse .missingColon k.mark
  else
    setCandidate i { k with possible := false }
    return false

/-- Gives up the innermost candidate, which is an error if it had to become a key. -/
def dropCandidate : Lex Unit := do
  let i ← level
  let k ← candidate i
  if k.possible then
    if k.required then refuse .missingColon k.mark
    else
      setCandidate i { k with possible := false }
      stopWaiting k.number

/-- Remembers the token at the cursor as a candidate if a key may start here. -/
def noteCandidate : Lex Unit := do
  let s ← get
  if s.keyAllowed then
    let required := !s.inFlow && s.indent == s.mark.column
    let k : KeyCandidate := ⟨true, required, s.tokens.size, s.mark⟩
    dropCandidate
    let i ← level
    setCandidate i k
    modify fun s => { s with waiting := s.waiting.insert k.number i }

/-- Says whether a key may start at the cursor. -/
def allowKey (b : Bool) : Lex Unit := modify fun s => { s with keyAllowed := b }

/-- Enters a flow collection. -/
def enterFlow : Lex Unit := do
  modify fun s =>
    { s with candidates := s.candidates.push ⟨false, false, s.tokens.size, s.mark⟩ }
  let s ← get
  if depthLimit + 1 < s.candidates.size then refuse .tooDeep s.mark

/-- Leaves a flow collection, if the cursor stands in one. -/
def leaveFlow : Lex Unit := do
  let s ← get
  if s.inFlow then
    stopWaiting (← candidate (← level)).number
    modify fun s => { s with candidates := s.candidates.pop }

/-! ## Blocks -/

/-- Where a block ends that is closed by what follows white space: in front of the white space, or
where the first of the comments at the column of the block starts.  `n` comments are considered. -/
def blockStop (comments : Array Comment) (attached : Nat) (column : Int) :
    Nat → (limit : Nat) → Mark → Mark
  | 0, _, stop => stop
  | n + 1, limit, stop =>
    match comments[n]? with
    | none => stop
    | some c =>
      if n < attached || c.stop < limit then stop
      else
        let stop := if (c.start.column : Int) == column + 1 then c.start else stop
        blockStop comments attached column n c.scanned stop

/-- Closes the blocks of indentation greater than `column`; `stop` is in front of the white space at
the cursor. -/
def closeBlocks (column : Int) (stop : Mark) : Lex Unit :=
  modify fun s =>
    if s.inFlow then s else go s.outer.size { stop with index := stop.index - 1 } s
where
  go : Nat → Mark → Lexer → Lexer
    | 0, _, s => s
    | n + 1, stop, s =>
      if column < s.indent then
        let stop := blockStop s.comments s.attached s.indent s.comments.size stop.index stop
        go n stop { s with
          tokens := s.tokens.push ⟨.blockEnd, stop, stop⟩
          indent := s.outer.back?.getD (-1)
          outer := s.outer.pop }
      else s

/-- Opens a block at `column` if it is indented deeper than the innermost one, with a token in front
of the token with the given number, or behind all tokens. -/
def openBlock (kind : TokenKind) (column : Nat) (number? : Option Nat) (m : Mark) : Lex Unit := do
  let s ← get
  if !s.inFlow && s.indent < column then
    modify fun s => { s with indent := column, outer := s.outer.push s.indent }
    if depthLimit ≤ s.outer.size then refuse .tooDeep (← candidate (← level)).mark
    else insert (number?.getD s.tokens.size) kind m

/-! ## White space -/

/-- Passes over white space and comments; `start` is where it starts.  A tab is white space only
where no key may start. -/
def skipSpace (start : Mark) : Nat → Lex Unit
  | 0 => return ()
  | n + 1 => do
    ensure 1
    let s ← get
    if s.mark.column = 0 && s.source.marked then skip
    let tabs := s.inFlow || !s.keyAllowed
    skipWhile fun c => c == ' ' || (tabs && c == '\t')
    adoptLineComment
    if (← peek?) == some '#' then readComments start
    if (← peek?).any isBreak then
      skipLine
      modify fun s => { s with keyAllowed := s.keyAllowed || !s.inFlow }
      skipSpace start n

/-! ## Tokens -/

/-- The end of the text closes all blocks. -/
def fetchEnd : Lex Unit := do
  modify fun s =>
    if s.mark.column = 0 then s
    else { s with mark := { s.mark with line := s.mark.line + 1, column := 0 } }
  closeBlocks (-1) (← mark)
  dropCandidate
  allowKey false
  pushMark .streamEnd 0

def fetchDirective : Lex Unit := do
  let start ← mark
  closeBlocks (-1) start
  dropCandidate
  allowKey false
  let (kind, stop) ← readDirective start
  modify fun s => { s with tokens := s.tokens.push ⟨kind, start, stop⟩ }

def fetchDocumentMark (kind : TokenKind) : Lex Unit := do
  closeBlocks (-1) (← mark)
  dropCandidate
  allowKey false
  pushMark kind 3

def fetchFlowStart (kind : TokenKind) : Lex Unit := do
  noteCandidate
  enterFlow
  allowKey true
  pushMark kind 1

def fetchFlowEnd (kind : TokenKind) : Lex Unit := do
  dropCandidate
  leaveFlow
  allowKey false
  pushMark kind 1

def fetchFlowEntry : Lex Unit := do
  dropCandidate
  allowKey true
  pushMark .flowEntry 1

/-- Opens a block at the cursor, where a key must be allowed. -/
def openBlockHere (kind : TokenKind) (problem : Problem) : Lex Unit := do
  let s ← get
  if !s.inFlow then
    if !s.keyAllowed then refuse problem s.mark
    else openBlock kind s.mark.column none s.mark

def fetchBlockEntry : Lex Unit := do
  openBlockHere .blockSequenceStart .misplacedEntry
  dropCandidate
  allowKey true
  pushMark .blockEntry 1

def fetchKey : Lex Unit := do
  openBlockHere .blockMappingStart .misplacedKey
  dropCandidate
  allowKey !(← get).inFlow
  pushMark .key 1

def fetchValue : Lex Unit := do
  let i ← level
  if ← isLive i then
    let k ← candidate i
    insert k.number .key k.mark
    openBlock .blockMappingStart k.mark.column (some k.number) k.mark
    setCandidate i { k with possible := false }
    stopWaiting k.number
    allowKey false
  else
    openBlockHere .blockMappingStart .misplacedValue
    allowKey !(← get).inFlow
  pushMark .value 1

/-- An anchor or alias. -/
def fetchName (kind : Text → TokenKind) : Lex Unit := do
  noteCandidate
  allowKey false
  let start ← mark
  skip
  push (kind (← readName start)) start

def fetchTag : Lex Unit := do
  noteCandidate
  allowKey false
  let start ← mark
  let (handle, suffix) ← readTag start
  push (.tag handle suffix) start

/-- Adds a scalar whose characters come last one first. -/
def pushScalar (reversed : List Char) (style : ScalarStyle) (start stop : Mark) : Lex Unit :=
  let kind := TokenKind.scalar (textOf reversed.reverse) style
  modify fun s => { s with tokens := s.tokens.push ⟨kind, start, stop⟩ }

def fetchBlockScalar (folded : Bool) : Lex Unit := do
  dropCandidate
  allowKey true
  let start ← mark
  skip
  let (text, stop) ← readBlock folded start
  pushScalar text .block start stop

def fetchQuoted (quote : Char) : Lex Unit := do
  noteCandidate
  allowKey false
  let start ← mark
  skip
  let text ← readQuoted quote start (← get).limit []
  pushScalar text .quoted start (← mark)

def fetchPlain : Lex Unit := do
  noteCandidate
  allowKey false
  let s ← get
  let (text, broken, stop) ← readPlain (s.indent + 1).toNat s.mark s.limit .empty [] s.mark
  pushScalar text .plain s.mark stop
  if broken then allowKey true

/-- Characters that cannot start a plain scalar. -/
def isIndicator (c : Char) : Bool :=
  ['-', '?', ':', ',', '[', ']', '{', '}', '#', '&', '*', '!', '|', '>', '\'', '"', '%', '@',
    '\x60'].contains c

/-- A plain scalar starts with character `x` before `next`. -/
def startsPlain (inFlow : Bool) (x : Char) (next : Option Char) : Bool :=
  (!isBlank x && !isBreak x && !isIndicator x) ||
    (x == '-' && !next.any isBlank) || (!inFlow && (x == '?' || x == ':') && !isGap next)

/-- The token that starts with character `x`. -/
def fetchAt (x : Char) : Lex Unit := do
  let s ← get
  let inFlow := s.inFlow
  let next := s.source.ahead? 1
  if x == '[' then fetchFlowStart .flowSequenceStart
  else if x == '{' then fetchFlowStart .flowMappingStart
  else if x == ']' then fetchFlowEnd .flowSequenceEnd
  else if x == '}' then fetchFlowEnd .flowMappingEnd
  else if x == ',' then fetchFlowEntry
  else if x == '-' && isGap next then fetchBlockEntry
  else if x == '?' && (inFlow || isGap next) then fetchKey
  else if x == ':' && (inFlow || isGap next) then fetchValue
  else if x == '*' then fetchName .aliasOf
  else if x == '&' then fetchName .anchor
  else if x == '!' then fetchTag
  else if x == '|' && !inFlow then fetchBlockScalar false
  else if x == '>' && !inFlow then fetchBlockScalar true
  else if x == '\'' || x == '"' then fetchQuoted x
  else if startsPlain inFlow x next then fetchPlain
  else refuse .noToken s.mark

/-- Reads the comment behind the token just read, which started at `start`.  A dash has none. -/
def fetchLineComment (start : Mark) : Lex Unit := do
  if (← get).tokens.back?.any (·.kind != .blockEntry) then readLineComment start

/-- The next token, with the tokens that its position implies. -/
def fetch : Lex Unit := do
  ensure 1
  let before ← mark
  if (← get).tokens.isEmpty then pushMark .streamStart 0
  else
    skipSpace before (← get).limit
    closeBlocks (← mark).column before
    ensure 4
    let s ← get
    match s.source.peek? with
    | none => fetchEnd
    | some x =>
      if s.mark.column = 0 && x == '%' then fetchDirective
      else if s.atDocumentMark then
        fetchDocumentMark (if x == '-' then .documentStart else .documentEnd)
      else
        let previous := (s.tokens.back?.map (·.start)).getD s.mark
        let start := if x == (if s.inFlow then ',' else ':') then previous else s.mark
        fetchAt x
        fetchLineComment start

/-! ## The current token -/

/-- Enough tokens are known: two behind the current one, and the colon behind it if it may be a
key. -/
def isSettled : Lex Bool := do
  let s ← get
  if s.taken + 2 < s.tokens.size then
    match s.waiting[s.taken]? with
    | none => return true
    | some i => return !(← isLive i)
  else return false

/-- Reads tokens until enough of them are known. -/
def settle : Nat → Lex Unit
  | 0 => return ()
  | n + 1 => do
    if !(← isSettled) then
      fetch
      settle n

/-- The current token. -/
def current : Lex Token := do
  let s ← get
  if !s.ready then
    settle (2 * s.limit)
    modify fun s => { s with ready := true }
  let s ← get
  match s.tokens[s.taken]? with
  | some t =>
    attach t s.comments.size
    return t
  | none => refuse .noContent s.mark

/-- Goes on to the next token. -/
def advance : Lex Unit := modify fun s => { s with taken := s.taken + 1, ready := false }

/-- Looks at the token behind a dash with `n` characters of comments in front of it.  If a nested
block starts there, those comments belong to the block as a whole. -/
def splitHead (n : Nat) : Lex Unit := do
  if n != 0 then
    if let some t ← attempt current then
      if t.kind == .blockSequenceStart || t.kind == .blockMappingStart then
        modify fun s => { s with head := s.head.drop (n + 1) }

end Lex

end TwigLint.Yaml
