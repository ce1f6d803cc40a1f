import TwigLint.Yaml.Lexer

/-! # Comments

A comment behind a token belongs to that line.  Comments on lines of their own belong to what
follows them, unless an empty line, a smaller indentation or the end of a flow collection tells that
they close what precedes them.
-/

namespace TwigLint.Yaml

/-- How far a comment is looked for. -/
def commentReach : Nat := 512

namespace Lex

/-- Adds a comment. -/
def addComment (c : Comment) : Lex Unit := modify fun s => { s with comments := s.comments.push c }

/-! ## Behind a token -/

/-- The number of blanks at the cursor if a comment follows them; `n` blanks are known. -/
def blanksBeforeComment : Nat → Nat → Lex (Option Nat)
  | 0, _ => return none
  | k + 1, n => do
    if !(← tryEnsure (n + 1)) then return none
    match ← ahead? n with
    | some c =>
      if isBlank c then blanksBeforeComment k (n + 1)
      else return if c == '#' then some n else none
    | none => return none

/-- Reads a comment behind a token; `owner` is where the token starts. -/
def readLineComment (owner : Mark) : Lex Unit := do
  if (← get).breaks = 0 then
    if let some n ← blanksBeforeComment commentReach 0 then
      skipKnown n
      let start ← mark
      let text ← readWhile (!isBreak ·)
      addComment ⟨.line, text, 0, owner.index, start, 0⟩

/-! ## On lines of their own -/

/-- What is known while comments are read. -/
structure CommentScan where
  /-- Where the white space in front of the comment starts. -/
  scanned : Nat
  /-- Where the token starts that the comment would close. -/
  owner : Nat
  /-- The line on which such a comment starts if it follows its token directly; no line behind a
  token on the first line of the text. -/
  footLine? : Option Nat
  /-- What precedes the comment waits for a value. -/
  afterColon : Bool
  /-- What has been read of the comment, last character first, and where it starts. -/
  text : List Char
  start : Mark
  /-- The line and column that the look ahead has reached. -/
  line : Nat
  column : Nat
  /-- No empty line has been seen at all, and one has been seen last. -/
  firstEmpty : Bool
  recentEmpty : Bool

namespace CommentScan

/-- The comment starts in front of the innermost block. -/
def isDedented (c : CommentScan) (indent : Nat) : Bool := c.start.column ≤ indent

/-- The comment closes what precedes it if an empty line follows. -/
def closes (c : CommentScan) (indent : Nat) : Bool :=
  c.firstEmpty && ((some c.start.line == c.footLine? && !c.afterColon) || c.isDedented indent)

/-- The comment read so far. -/
def comment (c : CommentScan) (role : CommentRole) (owner stop : Nat) : Comment :=
  ⟨role, c.text.reverse, c.scanned, owner, c.start, stop⟩

end CommentScan

/-- Ends a comment that closes what precedes it, `n` characters after the cursor. -/
def addFoot (c : CommentScan) (owner n : Nat) : Lex CommentScan := do
  let stop := (← mark).index + n
  addComment (c.comment .foot owner stop)
  return { c with scanned := stop, owner := stop, text := [] }

/-- Ends a comment in front of what follows it, `n` characters after the cursor. -/
def addHead (c : CommentScan) (n : Nat) : Lex Unit := do
  if !c.text.isEmpty then
    addComment (c.comment .head c.start.index ((← mark).index + n - 1))

/-- Passes over white space up to the position `seen`, and reads the comment there. -/
def readCommentAt (seen : Nat) : Nat → List Char → Lex (List Char)
  | 0, text => return text
  | n + 1, text => do
    ensure 1
    let c? ← peek?
    let reached := seen ≤ (← mark).index
    if isLineEnd c? then
      if reached then return text
      else
        skipLine
        readCommentAt seen n text
    else
      skip
      readCommentAt seen n (if reached then c?.toList ++ text else text)

/-- The column of the innermost block. -/
def blockColumn : Lex Nat := return (← get).indent.toNat

/-- The end of a line, or of a flow collection, `n` characters after the cursor. -/
def endCommentLine (c : CommentScan) (closesFlow atEnd : Bool) (n : Nat) : Lex CommentScan := do
  let indent ← blockColumn
  if !closesFlow && c.recentEmpty then return c
  else if closesFlow || c.closes indent then
    if c.text.isEmpty then return c
    else addFoot c (if c.isDedented indent then c.start.index else c.owner) n
  else return if c.text.isEmpty || atEnd then c else { c with text := '\n' :: c.text }

/-- Reads comments; `n` characters after the cursor have been looked at, and `inside` tells that the
next one is part of a wide line break. -/
def scanComments : Nat → (n : Nat) → (inside : Bool) → CommentScan → Lex Unit
  | 0, n, _, c => addHead c n
  | k + 1, n, inside, c => do
    if commentReach ≤ n then return ← addHead c n
    if !(← tryEnsure (n + 1)) then return ← addHead c n
    let c := { c with column := c.column + 1 }
    let next? ← if inside then pure (some '.') else ahead? n
    let indent ← blockColumn
    let closesFlow := (← get).inFlow && (next? == some ']' || next? == some '}')
    if next?.any isBlank then scanComments k (n + 1) false c
    else if closesFlow || isLineEnd next? then
      let c ← endCommentLine c closesFlow next?.isNone n
      if next?.any isBreak then
        scanComments k (n + 1) (next?.any isWideBreak)
          { c with firstEmpty := false, recentEmpty := true, column := 0, line := c.line + 1 }
      else addHead c n
    else
      let moved := c.column ≤ indent && c.column != c.start.column
      let c ← if !c.text.isEmpty && moved then addFoot c c.owner n else pure c
      if next? != some '#' then addHead c n
      else
        let seen := (← mark).index + n
        let (start, text) := if c.text.isEmpty then (⟨seen, c.line, c.column⟩, [])
          else (c.start, '\n' :: c.text)
        let text ← readCommentAt seen (← get).limit text
        let wide := (← peek?).any isWideBreak
        scanComments k 1 wide
          { c with start, text, recentEmpty := false, column := 0, line := (← mark).line }

/-- Reads comments from the cursor on; `scanned` is where the white space in front of them
starts. -/
def readComments (scanned : Mark) : Lex Unit := do
  let s ← get
  let last := s.tokens.size - 1
  let behindComma := s.tokens[last]?.any (·.kind == .flowEntry) && 0 < last
  let token? := s.tokens[if behindComma then last - 1 else last]?
  let footLine := s.mark.line + 1 - s.breaks
  scanComments (2 * s.limit + commentReach) 0 false {
    scanned := scanned.index
    owner := (token?.map (·.start.index)).getD 0
    footLine? :=
      if scanned.line = 0 then none
      else some (if s.breaks = 0 && 1 < s.mark.column then footLine + 1 else footLine)
    afterColon := token?.any (·.kind == .value)
    text := []
    start := .start
    line := s.mark.line
    column := s.mark.column
    firstEmpty := s.breaks ≤ 1
    recentEmpty := false }

/-- A comment behind a dash that is followed by content belongs to that content.  It is attached to
the token at the cursor if it stands on the line in front of it. -/
def adoptLineComment : Lex Unit :=
  modify fun s =>
    let n := s.tokens.size
    let kind? (i : Nat) : Option TokenKind := s.tokens[i]?.map (·.kind)
    let opensSequence := 1 < n && kind? (n - 2) == some .blockSequenceStart &&
      kind? (n - 1) == some .blockEntry
    match s.comments.back? with
    | none => s
    | some c =>
      if opensSequence && s.attached < s.comments.size && c.role == .line &&
          !s.source.peek?.any isBreak then
        let owner := if c.start.line + 1 = s.mark.line then s.mark.index else c.owner
        { s with comments := s.comments.pop.push { c with role := .head, owner } }
      else s

/-! ## Comments and tokens -/

/-- Attaches the comments up to a token to it.  The end of a block has no comments in front of
it. -/
def attach (t : Token) : Nat → Lex Unit
  | 0 => return ()
  | k + 1 => do
    let s ← get
    match s.comments[s.attached]? with
    | none => return ()
    | some c =>
      if t.start.index < c.owner || (c.role == .head && t.kind == .blockEnd) then return ()
      else
        let head := if c.role != .head then s.head
          else if s.head.isEmpty then c.text else s.head ++ '\n' :: c.text
        set { s with attached := s.attached + 1, head }
        attach t k

/-- The comments in front of the current token have been used. -/
def dropHead : Lex Unit := modify fun s => { s with head := [] }

/-- The part of a comment after its last empty line. -/
def afterEmptyLine (text : List Char) : List Char :=
  go text.reverse []
where
  /-- Walks from the end of the text to its start; `behind` is what has been passed. -/
  go : List Char → List Char → List Char
    | c :: before, behind =>
      if c == '\n' && !before.isEmpty && (behind.isEmpty || before.head? == some '\n') then behind
      else go before (c :: behind)
    | [], behind => behind

end Lex

end TwigLint.Yaml
