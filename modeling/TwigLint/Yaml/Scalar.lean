import TwigLint.Yaml.Comment

/-! # Scalars

The three ways to write a scalar: plain, in quotes, and as an indented block.  What has been read is
kept with its last character first.
-/

namespace TwigLint.Yaml

/-- White space between two parts of a scalar: blanks on one line, or the first line break and those
that follow it, the last one first. -/
structure Gap where
  blanks : List Char
  first : List Char
  more : List Char
  broken : Bool

namespace Gap

def empty : Gap := ⟨[], [], [], false⟩

/-- Blanks after a line break are dropped. -/
def addBlank (g : Gap) (c : Char) : Gap :=
  if g.broken then g else { g with blanks := c :: g.blanks }

/-- Blanks before a line break are dropped. -/
def addBreak (g : Gap) (c : Char) : Gap :=
  if g.broken then { g with more := c :: g.more } else ⟨[], [c], [], true⟩

/-- What a gap reads as: a single line break is a blank, further ones are kept. -/
def fold (g : Gap) : List Char :=
  if !g.broken then g.blanks
  else if g.first == ['\n'] then (if g.more.isEmpty then [' '] else g.more)
  else g.more ++ g.first

end Gap

namespace Lex

/-- Reads white space onto a gap.  In a scalar that starts at `start`, a tab in the first `indent`
columns of a later line is refused. -/
def readGap (indent : Nat) (start : Mark) : Nat → Gap → Lex Gap
  | 0, g => return g
  | n + 1, g => do
    match ← peek? with
    | none => return g
    | some c =>
      if isBlank c then
        if g.broken && c == '\t' && (← mark).column < indent then refuse .plainTab start
        else
          skipOne
          readGap indent start n (g.addBlank c)
      else if isBreak c then
        let br ← readLine
        ensure 1
        readGap indent start n (g.addBreak br)
      else return g

/-! ## Plain scalars -/

/-- Characters that end a plain scalar inside flow collections. -/
def isFlowStop (c : Char) : Bool :=
  c == ',' || c == '?' || c == '[' || c == ']' || c == '{' || c == '}'

/-- A plain scalar ends at the cursor, by a gap or by an indicator. -/
def atPlainEnd : Lex Bool := do
  let s ← get
  match s.source.peek? with
  | none => return true
  | some c =>
    return isBlank c || isBreak c || (c == ':' && isGap (s.source.ahead? 1)) ||
      (s.inFlow && isFlowStop c)

/-- The characters of a plain scalar up to its end or to a gap, added to `done`. -/
def readPlainRun : Nat → List Char → Lex (List Char)
  | 0, done => return done
  | n + 1, done => do
    if ← atPlainEnd then return done
    else
      let c? ← peek?
      skip
      ensure 2
      readPlainRun n (c?.toList ++ done)

/-- The rest of a plain scalar after `done`, which ends at `stop`, and a gap: its characters,
whether it ended after a line break, and where its last character ends.  Outside flow collections
its lines have at least `indent` columns in front. -/
def readPlain (indent : Nat) (start : Mark) :
    Nat → Gap → List Char → Mark → Lex (List Char × Bool × Mark)
  | 0, gap, done, stop => return (done, gap.broken, stop)
  | n + 1, gap, done, stop => do
    ensure 4
    let s ← get
    if s.atDocumentMark || s.source.peek? == some '#' then return (done, gap.broken, stop)
    else
      let fresh := !(← atPlainEnd)
      let done ← if fresh then readPlainRun s.limit (gap.fold ++ done) else pure done
      let stop ← if fresh then mark else pure stop
      let c? ← peek?
      if !c?.any fun c => isBlank c || isBreak c then return (done, !fresh && gap.broken, stop)
      else
        ensure 1
        let gap ← readGap indent start s.limit .empty
        if !s.inFlow && (← mark).column < indent then return (done, gap.broken, stop)
        else readPlain indent start n gap done stop

/-! ## Quoted scalars -/

/-- What a one-letter escape stands for. -/
def escaped? (c : Char) : Option Char :=
  [('0', '\x00'), ('a', '\x07'), ('b', '\x08'), ('t', '\t'), ('\t', '\t'), ('n', '\n'),
    ('v', '\x0b'), ('f', '\x0c'), ('r', '\r'), ('e', '\x1b'), (' ', ' '), ('"', '"'),
    ('\'', '\''), ('\\', '\\'), ('N', '\u0085'), ('_', '\u00a0'), ('L', '\u2028'),
    ('P', '\u2029')].lookup c

/-- Number of hexadecimal digits after an escape letter. -/
def escapeDigits? (c : Char) : Option Nat :=
  [('x', 2), ('u', 4), ('U', 8)].lookup c

/-- The character of an escape at the cursor, which stands on the backslash. -/
def readEscape (start : Mark) : Lex Char := do
  let letter := (← ahead? 1).getD '\x00'
  match escaped? letter, escapeDigits? letter with
  | some c, _ =>
    skipKnown 2
    return c
  | none, none => refuse .unknownEscape start
  | none, some width =>
    skipKnown 2
    ensure width
    let digits := (← get).source.rest.take width
    if digits.length < width || !digits.all isHexChar then refuse .hexEscape start
    else
      let code := digits.foldl (fun n d => 16 * n + hexCharValue d) 0
      if (0xd800 ≤ code && code ≤ 0xdfff) || 0x10ffff < code then refuse .escapedCode start
      else
        skipKnown width
        return Char.ofNat code

/-- The characters up to a gap, the closing quote or an escaped line break, added to `done`, and
whether it was the latter. -/
def readQuotedRun (quote : Char) (start : Mark) : Nat → List Char → Lex (List Char × Bool)
  | 0, done => return (done, false)
  | n + 1, done => do
    match ← peek? with
    | none => return (done, false)
    | some c =>
      let next? ← ahead? 1
      if isBlank c || isBreak c then return (done, false)
      else if c == '\'' && quote == '\'' && next? == some '\'' then
        skipKnown 2
        ensure 2
        readQuotedRun quote start n ('\'' :: done)
      else if c == quote then return (done, false)
      else if c == '\\' && quote == '"' then
        if next?.any isBreak then
          ensure 3
          skip
          modify Lexer.nextLine
          return (done, true)
        else
          let char ← readEscape start
          ensure 2
          readQuotedRun quote start n (char :: done)
      else
        skip
        ensure 2
        readQuotedRun quote start n (c :: done)

/-- The rest of a quoted scalar after `done`, through its closing quote. -/
def readQuoted (quote : Char) (start : Mark) : Nat → List Char → Lex (List Char)
  | 0, _ => refuse .openQuotes start
  | n + 1, done => do
    ensure 4
    let s ← get
    if s.atDocumentMark then refuse .documentMarkInQuotes start
    else if s.source.peek?.isNone then refuse .openQuotes start
    else
      let (done, escapedBreak) ← readQuotedRun quote start s.limit done
      ensure 1
      if (← peek?) == some quote then
        skip
        return done
      else
        let gap ← readGap 0 start s.limit { Gap.empty with broken := escapedBreak }
        readQuoted quote start n (gap.fold ++ done)

/-! ## Block scalars -/

/-- What becomes of the line breaks at the end of a block scalar. -/
inductive Chomping where
  | strip
  | clip
  | keep
  deriving DecidableEq, Repr

/-- The sign that tells how a block scalar ends. -/
def readChomping? : Lex (Option Chomping) := do
  match ← peek? with
  | some '+' =>
    skipOne
    return some .keep
  | some '-' =>
    skipOne
    return some .strip
  | _ => return none

/-- The digit that tells the indentation of a block scalar. -/
def readWidth? (start : Mark) : Lex (Option Nat) := do
  match ← peek? with
  | some d =>
    if d == '0' then refuse .zeroIndent start
    else if d.isDigit then
      skipOne
      return some (d.toNat - 48)
    else return none
  | none => return none

/-- The header of a block scalar after its first character: how it ends, and its indentation if that
is given. -/
def readBlockHeader (start : Mark) : Lex (Chomping × Option Nat) := do
  ensure 1
  match ← readChomping? with
  | some how => return (how, ← readWidth? start)
  | none =>
    match ← readWidth? start with
    | none => return (.clip, none)
    | some width => return ((← readChomping?).getD .clip, some width)

/-- Passes over the indentation of a line, up to `width` columns if that is known. -/
def skipIndent (width? : Option Nat) : Nat → Lex Unit
  | 0 => return ()
  | n + 1 => do
    ensure 1
    let column := (← mark).column
    if width?.all (column < ·) && (← peek?) == some ' ' then
      skip
      skipIndent width? n

/-- Empty lines in front of a line of a block scalar: their breaks, the widest indentation seen, and
the end of the last of them.  All blanks are indentation as long as no width is known. -/
def readBlockBreaks (width? : Option Nat) (start : Mark) :
    Nat → Nat → List Char → Mark → Lex (List Char × Nat × Mark)
  | 0, widest, breaks, stop => return (breaks, widest, stop)
  | n + 1, widest, breaks, stop => do
    skipIndent width? (← get).limit
    let column := (← mark).column
    let widest := max widest column
    let c? ← peek?
    if c? == some '\t' && width?.all (column < ·) then refuse .blockTab start
    else if c?.any isBreak then
      let br ← readLine
      readBlockBreaks width? start n widest (br :: breaks) (← mark)
    else return (breaks, widest, stop)

/-- A block scalar under construction: what has been read, the break after the last line, the breaks
of the empty lines after it, and whether that line starts with a blank. -/
structure BlockText where
  done : List Char
  lastBreak : List Char
  emptyLines : List Char
  indented : Bool

/-- The text in front of one more line, which is joined to the line before by a blank if the scalar
is folded and neither of them starts with one. -/
def BlockText.join (b : BlockText) (folded startsBlank : Bool) : List Char :=
  if folded && !b.indented && !startsBlank && b.lastBreak == ['\n'] then
    b.emptyLines ++ (if b.emptyLines.isEmpty then [' '] else []) ++ b.done
  else b.emptyLines ++ b.lastBreak ++ b.done

/-- The lines of a block scalar, and where the last of them ends. -/
def readBlockLines (folded : Bool) (width : Nat) (start : Mark) :
    Nat → BlockText → Mark → Lex (BlockText × Mark)
  | 0, b, stop => return (b, stop)
  | n + 1, b, stop => do
    let s ← get
    if s.mark.column != width || s.source.peek?.isNone then return (b, stop)
    else
      let startsBlank := s.source.peek?.any isBlank
      let line ← readWhile (!isBreak ·)
      let done := line.reverse ++ b.join folded startsBlank
      ensure 2
      let lastBreak ← if (← peek?).any isBreak then do pure [← readLine] else pure []
      let (emptyLines, _, stop) ← readBlockBreaks (some width) start s.limit 0 [] (← mark)
      readBlockLines folded width start n ⟨done, lastBreak, emptyLines, startsBlank⟩ stop

/-- A block scalar after its first character, and where it ends. -/
def readBlock (folded : Bool) (start : Mark) : Lex (List Char × Mark) := do
  let (chomping, given) ← readBlockHeader start
  skipWhile isBlank
  if (← peek?) == some '#' then
    readLineComment start
    skipWhile (!isBreak ·)
  if !isLineEnd (← peek?) then refuse .blockTail start
  else
    if (← peek?).any isBreak then skipLine
    let s ← get
    let given := given.map fun n => if 0 ≤ s.indent then s.indent.toNat + n else n
    let (emptyLines, widest, stop) ← readBlockBreaks given start s.limit 0 [] s.mark
    let width := given.getD (max widest (max (s.indent + 1) 1).toNat)
    ensure 1
    let (b, stop) ← readBlockLines folded width start s.limit ⟨[], [], emptyLines, false⟩ stop
    let tail := match chomping with
      | .strip => []
      | .clip => b.lastBreak
      | .keep => b.emptyLines ++ b.lastBreak
    return (tail ++ b.done, stop)

end Lex

end TwigLint.Yaml
