import TwigLint.Template.Lexeme

/-! # Segments of a template

A template source is a sequence of segments: text runs, comments, verbatim sections, and print
statements or tags.  A delimiter can carry a trim marker that removes white space from the text on
its outer side.  `Segment.split` cuts a source into segments and reads the tokens inside tags;
`Segment.tokens` applies the trim markers.
-/

namespace TwigLint

/-- The white space that a trim marker removes. -/
inductive Trim where
  /-- No marker. -/
  | keep
  /-- `-`: all white space. -/
  | all
  /-- `~`: white space on the same line. -/
  | inline
  deriving DecidableEq, Repr

namespace Trim

/-- The marker that a byte is. -/
def ofByte (b : UInt8) : Trim := if b == '-' then all else if b == '~' then inline else keep

/-- The marker at the front of a text. -/
def ofHead : Text → Trim
  | [] => keep
  | b :: _ => ofByte b

/-- Bytes that a marker removes. -/
def drops : Trim → UInt8 → Bool
  | keep, _ => false
  | all, b => b == ' ' || b == '\t' || b == '\n' || b == '\r' || b == 0 || b == 11
  | inline, b => b == ' ' || b == '\t' || b == 0 || b == 11

/-- Number of bytes of the marker. -/
def width : Trim → Nat
  | keep => 0
  | all => 1
  | inline => 1

end Trim

/-- What a segment is.  `lead` and `trail` are the markers of its first and last delimiter. -/
inductive Shape where
  | text
  | comment (lead trail : Trim)
  /-- The content of a verbatim section has its own start and inner markers. -/
  | verbatim (lead : Trim) (start : Location) (inner : Text) (innerLead innerTrail : Trim)
      (trail : Trim)
  | tag (lead : Trim) (tokens : List Token) (trail : Trim)
  deriving DecidableEq, Repr

/-- A segment with the position of its first byte and its bytes. -/
structure Segment where
  start : Location
  source : Text
  shape : Shape
  deriving DecidableEq, Repr

namespace Segment

/-- The marker that applies to the text before a segment. -/
def lead (s : Segment) : Trim :=
  match s.shape with
  | .text => .keep
  | .comment lead _ => lead
  | .verbatim lead _ _ _ _ _ => lead
  | .tag lead _ _ => lead

/-- The marker that applies to the text after a segment. -/
def trail (s : Segment) : Trim :=
  match s.shape with
  | .text => .keep
  | .comment _ trail => trail
  | .verbatim _ _ _ _ _ trail => trail
  | .tag _ _ trail => trail

/-! ## Text runs -/

/-- A delimiter opens here, the brace before it having been read. -/
def opensAfterBrace : Text → Bool
  | [] => false
  | b :: _ => b == '{' || b == '%' || b == '#'

/-- The longest beginning of a text in which no delimiter opens. -/
def textRun : Text → Text
  | [] => []
  | b :: t => if b == '{' && opensAfterBrace t then [] else b :: textRun t

/-! ## Comments -/

/-- The marker at the end of a comment's content. -/
def commentTrail (content : Text) : Trim :=
  match content.getLast? with
  | some b => Trim.ofByte b
  | none => .keep

/-- The comment whose opening delimiter has been read; `body` is the source behind it. -/
def comment (start : Location) (body : Text) : Except SyntaxError Segment :=
  match Text.find? "#\x7d" body with
  | none => .error ⟨.unclosedComment, start⟩
  | some (content, _) =>
    .ok ⟨start, "\x7b#" ++ content ++ "#\x7d", .comment (.ofHead content) (commentTrail content)⟩

/-! ## Verbatim sections -/

/-- One of two words at the front of a text, and the rest. -/
def afterEither (v w : Text) (t : Text) : Option (Text × Text) :=
  match Text.after? v t with
  | some r => some (v, r)
  | none => (Text.after? w t).map fun r => (w, r)

/-- Blanks, an optional marker and the closing delimiter of a tag. -/
def afterTagEnd (t : Text) : Option (Trim × Text) :=
  let r := t.dropWhile Lexeme.isBlank
  let trim := Trim.ofHead r
  (Text.after? "%\x7d" (r.drop trim.width)).map fun rest => (trim, rest)

/-- The rest of a tag that opens a verbatim section: its name, the marker at its end, what
follows. -/
def verbatimOpen? (t : Text) : Option (Text × Trim × Text) := do
  let (name, r) ← afterEither "verbatim" "raw" (t.dropWhile Lexeme.isBlank)
  let (trim, rest) ← afterTagEnd r
  return (name, trim, rest)

/-- A tag that ends a verbatim section: its two markers, and what follows. -/
def verbatimEnd? (t : Text) : Option (Trim × Trim × Text) := do
  let r ← Text.after? "\x7b%" t
  let lead := Trim.ofHead r
  let r ← Text.after? "end" ((r.drop lead.width).dropWhile Lexeme.isBlank)
  let (_, r) ← afterEither "verbatim" "raw" r
  let (trail, rest) ← afterTagEnd r
  return (lead, trail, rest)

/-- The content up to the first end tag, the markers of that tag, and what follows it. -/
def verbatimBody? : Text → Option (Text × Trim × Trim × Text)
  | [] => none
  | b :: t =>
    match verbatimEnd? (b :: t) with
    | some (lead, trail, rest) => some ([], lead, trail, rest)
    | none => (verbatimBody? t).map fun (inner, r) => (b :: inner, r)

/-! ## Print statements and tags -/

/-- White space between lexemes. -/
def isTagBlank (b : UInt8) : Bool :=
  b == ' ' || b == '\t' || b == '\n' || b == '\r' || b == 11 || b == 12

/-- The tokens of a tag from some point on, its last marker, and the bytes they take. -/
structure TagRest where
  tokens : List Token
  trail : Trim
  source : Text

namespace TagRest

/-- One byte of white space in front. -/
def consBlank (b : UInt8) (r : TagRest) : TagRest := { r with source := b :: r.source }

/-- One lexeme in front. -/
def consToken (tok : Token) (source : Text) (r : TagRest) : TagRest :=
  { r with tokens := tok :: r.tokens, source := source ++ r.source }

end TagRest

/-- The two kinds of sections that hold tokens. -/
inductive TagKind where
  | print
  | block
  deriving DecidableEq, Repr

namespace TagKind

def startType : TagKind → TokenType
  | print => .printStart
  | block => .tagStart

def endType : TagKind → TokenType
  | print => .printEnd
  | block => .tagEnd

def opener : TagKind → Text
  | print => "\x7b\x7b"
  | block => "\x7b%"

def closer : TagKind → Text
  | print => "\x7d\x7d"
  | block => "%\x7d"

/-- The word for a section that is still open at the end of the source. -/
def label : TagKind → Text
  | print => "variable"
  | block => "block"

end TagKind

/-- The closing delimiter at the front of a text, with the marker before it. -/
def close? (kind : TagKind) (t : Text) : Option (Trim × Text) :=
  if t.startsWith kind.closer then some (.keep, kind.closer)
  else
    match t with
    | [] => none
    | b :: r =>
      if Trim.ofByte b != .keep && Text.startsWith r kind.closer then
        some (Trim.ofByte b, b :: kind.closer)
      else none

/-- The bracket that a closing bracket closes. -/
def openerOf? (b : UInt8) : Option UInt8 :=
  if b == ')' then some '(' else if b == ']' then some '[' else if b == '}' then some '{' else none

/-- A bracket that is open, and where. -/
structure OpenBracket where
  bracket : UInt8
  location : Location

/-- The open brackets after a token. -/
def brackets (stack : List OpenBracket) (tok : Token) : Except SyntaxError (List OpenBracket) :=
  match tok.type, tok.value with
  | .punctuation, [b] =>
    if b == '(' || b == '[' || b == '{' then .ok (⟨b, tok.location⟩ :: stack)
    else
      match openerOf? b, stack with
      | none, _ => .ok stack
      | some _, [] => .error ⟨.unexpectedBracket b, tok.location⟩
      | some opener, o :: below =>
        if o.bracket == opener then .ok below else .error ⟨.unclosed [o.bracket], o.location⟩
  | _, _ => .ok stack

/-- Reads the inside of a section of the given kind that starts at `start`, up to and including its
closing delimiter, which counts only where no bracket is open. -/
def tagRest (kind : TagKind) (start : Location) (stack : List OpenBracket) (loc : Location) :
    Text → Except SyntaxError TagRest
  | [] =>
    match stack with
    | o :: _ => .error ⟨.unclosed [o.bracket], o.location⟩
    | [] => .error ⟨.unclosed kind.label, start⟩
  | b :: t =>
    if isTagBlank b then return (← tagRest kind start stack (loc.step b) t).consBlank b
    else
      match if stack.isEmpty then close? kind (b :: t) else none with
      | some (trail, source) => .ok ⟨[⟨kind.endType, kind.closer, loc⟩], trail, source⟩
      | none =>
        match Lexeme.read b t with
        | .error fault => .error ⟨fault, loc⟩
        | .ok lexeme => do
          let tok : Token := ⟨lexeme.type, lexeme.value, loc⟩
          let stack ← brackets stack tok
          let rest ← tagRest kind start stack (loc.advance lexeme.source)
            (t.drop (lexeme.source.length - 1))
          return rest.consToken tok lexeme.source
  termination_by t => t.length
  decreasing_by all_goals simp only [List.length_cons, List.length_drop]; omega

/-- The print statement or tag whose opening delimiter has been read. -/
def tag (kind : TagKind) (start : Location) (body : Text) : Except SyntaxError Segment := do
  let lead := Trim.ofHead body
  let opening := kind.opener ++ body.take lead.width
  let rest ← tagRest kind start [] (start.advance opening) (body.drop lead.width)
  return ⟨start, opening ++ rest.source,
    .tag lead (⟨kind.startType, kind.opener, start⟩ :: rest.tokens) rest.trail⟩

/-- The tag or verbatim section whose opening delimiter has been read. -/
def blockTag (start : Location) (body : Text) : Except SyntaxError Segment :=
  let lead := Trim.ofHead body
  match verbatimOpen? (body.drop lead.width) with
  | none => tag .block start body
  | some (name, innerLead, content) =>
    match verbatimBody? content with
    | none => .error ⟨.unclosedBlock name, start⟩
    | some (inner, innerTrail, trail, rest) =>
      let opening := TagKind.block.opener ++ body.take (body.length - content.length)
      .ok ⟨start, opening ++ content.take (content.length - rest.length),
        .verbatim lead (start.advance opening) inner innerLead innerTrail trail⟩

/-- The segment at the front of the source `b :: t`. -/
def first (start : Location) (b : UInt8) (t : Text) : Except SyntaxError Segment :=
  let run := textRun (b :: t)
  match t with
  | c :: body =>
    if run.isEmpty then
      if c == '#' then comment start body
      else if c == '%' then blockTag start body
      else tag .print start body
    else .ok ⟨start, run, .text⟩
  | [] => .ok ⟨start, run, .text⟩

/-- The segments of a source that starts at the given position. -/
def splitFrom (start : Location) : Text → Except SyntaxError (List Segment)
  | [] => .ok []
  | b :: t => do
    let segment ← first start b t
    let rest ← splitFrom (start.advance segment.source) (t.drop (segment.source.length - 1))
    return segment :: rest
  termination_by t => t.length
  decreasing_by simp only [List.length_cons, List.length_drop]; omega

/-- The segments of a source. -/
def split (source : Text) : Except SyntaxError (List Segment) := splitFrom .start source

/-! ## Whitespace control -/

/-- The token for a piece of text between two markers; none when nothing is left of it.  A line
that a marker removes is counted, a column is not. -/
def textToken (before behind : Trim) (start : Location) (t : Text) : List Token :=
  let cut := t.dropWhile before.drops
  let line := start.line + Text.countByte '\n' (t.takeWhile before.drops)
  let kept := Text.trimRight behind.drops cut
  if kept.isEmpty then [] else [⟨.text, kept, ⟨line, start.column⟩⟩]

/-- The marker of the segment that comes next. -/
def nextLead : List Segment → Trim
  | [] => .keep
  | s :: _ => s.lead

/-- The tokens of a list of segments; `before` is the marker in front of them. -/
def tokens (before : Trim) : List Segment → List Token
  | [] => []
  | s :: rest =>
    (match s.shape with
      | .text => textToken before (nextLead rest) s.start s.source
      | .comment _ _ => []
      | .verbatim _ start inner innerLead innerTrail _ => textToken innerLead innerTrail start inner
      | .tag _ tokens _ => tokens) ++ tokens s.trail rest

end Segment

/-- The tokens of a template, and the token for its end. -/
structure TokenStream where
  tokens : List Token
  eof : Token
  deriving DecidableEq, Repr

namespace TokenStream

/-- The tokens of a template source. -/
def ofSource (source : Text) : Except SyntaxError TokenStream := do
  let source := source.normalizeNewlines
  let segments ← Segment.split source
  return ⟨Segment.tokens .keep segments, ⟨.eof, [], Location.start.advance source⟩⟩

/-- All tokens, the end token last. -/
def toList (s : TokenStream) : List Token := s.tokens ++ [s.eof]

end TokenStream

end TwigLint
