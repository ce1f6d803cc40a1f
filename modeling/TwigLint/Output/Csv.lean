import TwigLint.Text.Utf8

/-! # Comma-separated values

Fields are separated by commas and records end with a line feed.  A field that could be misread is
put in quotes, and a quote inside it is doubled.  Reading accepts no other quotes.
-/

namespace TwigLint.Csv

/-- Bytes that make a field need quotes. -/
def isSpecial (b : UInt8) : Bool := b == '\n' || b == '\r' || b == '"' || b == ','

/-- The field could be misread: it has a special byte, starts with white space, or is the mark for
the end of data. -/
def needsQuotes (t : Text) : Bool :=
  t == "\\." || t.any isSpecial || (t.units.head?.any Text.isSpaceUnit)

/-- The text with its quotes doubled. -/
def doubled : Text → Text
  | [] => []
  | b :: rest => if b == '"' then b :: b :: doubled rest else b :: doubled rest

/-- A field, in quotes where needed. -/
def field (t : Text) : Text := if needsQuotes t then "\"" ++ doubled t ++ "\"" else t

/-- One record. -/
def record (fields : List Text) : Text := Text.join "," (fields.map field) ++ "\n"

/-- A header and records. -/
def render (header : List Text) (rows : List (List Text)) : Text :=
  record header ++ rows.flatMap record

/-! ## Reading -/

/-- Why a record cannot be read, with the lines at which the record and the fault start. -/
inductive ReadError where
  /-- There is no record. -/
  | nothing
  /-- A quote in a field without quotes. -/
  | bareQuote (start line column : Nat)
  /-- A quote in a field with quotes that is neither doubled nor last, or a missing one. -/
  | strayQuote (start line column : Nat)
  deriving DecidableEq, Repr

namespace ReadError

/-- The place of a fault. -/
def place (start line column : Nat) : Text :=
  let before : Text := if start = line then "" else "record on line " ++ Text.ofNat start ++ "; "
  before ++ "parse error on line " ++ Text.ofNat line ++ ", column " ++ Text.ofNat column ++ ": "

def message : ReadError → Text
  | nothing => "EOF"
  | bareQuote start line column => place start line column ++ "bare \" in non-quoted field"
  | strayQuote start line column =>
    place start line column ++ "extraneous or missing \" in quoted-field"

end ReadError

/-- Where reading stands in a field. -/
inductive Position where
  | atStart
  | plain
  | quoted
  | afterQuote
  deriving DecidableEq, Repr

/-- The fields of the record that starts here; `read` is the field read so far. -/
def fields (start : Nat) :
    Position → (line column : Nat) → (read : Text) → Text → Except ReadError (List Text)
  | .quoted, line, column, _, [] => .error (.strayQuote start line column)
  | _, _, _, read, [] => .ok [read]
  | .quoted, line, column, read, b :: rest =>
    if b == '"' then fields start .afterQuote line (column + 1) read rest
    else if b == '\n' && !rest.isEmpty then fields start .quoted (line + 1) 1 (read ++ [b]) rest
    else fields start .quoted line (column + 1) (read ++ [b]) rest
  | position, line, column, read, b :: rest =>
    if b == ',' then return read :: (← fields start .atStart line (column + 1) [] rest)
    else if b == '\n' then .ok [read]
    else if b == '"' then
      match position with
      | .atStart => fields start .quoted line (column + 1) read rest
      | .plain => .error (.bareQuote start line column)
      | _ => fields start .quoted line (column + 1) (read ++ [b]) rest
    else if position = .afterQuote then .error (.strayQuote start line (column - 1))
    else fields start .plain line (column + 1) (read ++ [b]) rest

/-- The first record of a text that is not empty. -/
def firstRecord (t : Text) : Except ReadError (List Text) :=
  let t := Text.normalizeNewlines (t.dropSuffix "\r")
  let rest := t.dropWhile fun (b : UInt8) => b == '\n'
  if rest.isEmpty then .error .nothing
  else
    let line := t.length - rest.length + 1
    fields line .atStart line 1 [] rest

end TwigLint.Csv
