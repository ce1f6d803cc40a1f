import TwigLint.Text.Utf8

/-! # Aligned columns

Lines of cells are aligned in columns that are two blanks wider than their widest cell.  A cell ends
at a tab or vertical tab, a line at a line feed or form feed.  Only neighbouring lines that have a
cell in a column share its width, the last cell of a line belongs to no column, and a form feed
separates what is aligned.  A passage between two bytes 0xff belongs to one cell, whatever it is.
-/

namespace TwigLint.Table

/-- The cells of one line. -/
abbrev Line := List Text

/-- Blanks between columns. -/
def padding : Nat := 2

def endsCell (b : UInt8) : Bool := b == '\t' || b == 0x0b

def endsLine (b : UInt8) : Bool := b == '\n' || b == 0x0c

/-- Begins a passage in which no cell and no line ends, and ends it. -/
def escape : UInt8 := 0xff

/-- The lines of a text in sections of lines aligned together.  A line is read onto `cell` and
`cells`, those before it are `lines`; the text may begin inside a passage. -/
def sections (escaped : Bool) (cell : Text) (cells : Line) (lines : List Line) :
    Text → List (List Line)
  | [] => [lines ++ [cells ++ [cell]]]
  | b :: rest =>
    if !escaped && endsCell b then sections false [] (cells ++ [cell]) lines rest
    else if !escaped && endsLine b then
      let lines := lines ++ [cells ++ [cell]]
      if b == 0x0c then lines :: sections false [] [] [] rest else sections false [] [] lines rest
    else sections (escaped != (b == escape)) (cell ++ [b]) cells lines rest

/-- The characters of a cell that are shown. -/
def cellWidth (cell : Text) : Nat := Text.charCount cell - cell.count escape

/-- The line has a cell in a column that is not its last cell. -/
def hasColumn (column : Nat) (line : Line) : Bool := column + 1 < line.length

/-- The width of a column of lines that all have it. -/
def columnWidth (column : Nat) (lines : List Line) : Nat :=
  (lines.map fun line => cellWidth (line.getD column []) + padding).foldl max 0

/-- A line with its first cells padded to the given widths. -/
def padLine : (widths : List Nat) → Line → Text
  | _, [] => []
  | [], cells => cells.flatten
  | w :: ws, c :: cs =>
    c ++ List.replicate (w - cellWidth c) (' ' : UInt8) ++ padLine ws cs

/-- The neighbouring lines that agree on a property, with its value. -/
def runs (p : Line → Bool) : List Line → List (Bool × List Line)
  | [] => []
  | line :: rest =>
    match runs p rest with
    | (b, run) :: more =>
      if b == p line then (b, line :: run) :: more else (p line, [line]) :: (b, run) :: more
    | [] => [(p line, [line])]

/-- Lines with the columns from `widths.length` on aligned; `n` bounds the number of columns. -/
def align : (n : Nat) → (widths : List Nat) → List Line → List Text
  | 0, widths, lines => lines.map (padLine widths)
  | n + 1, widths, lines =>
    let column := widths.length
    (runs (hasColumn column) lines).flatMap fun (has, run) =>
      if has then align n (widths ++ [columnWidth column run]) run
      else run.map (padLine widths)

/-- The aligned text of lines that stand together. -/
def alignSection (lines : List Line) : Text :=
  let columns := (lines.map List.length).foldl max 0
  (align columns [] lines).flatMap fun line => line ++ [('\n' : UInt8)]

/-- The aligned text of a text of cells and lines whose last line break is left out. -/
def alignText (t : Text) : Text := (sections false [] [] [] t).flatMap alignSection

/-- The text with its lines joined by blanks and its tabs made blanks. -/
def flatten (t : Text) : Text :=
  let lines := t.trimSpace.splitOn '\n'
  let blank (b : UInt8) : UInt8 := if b == '\t' then ' ' else b
  Text.join " " (lines.map fun l => Text.trimSpace (l.map blank))

/-- A header and rows of cells as a table; nothing when there are no rows. -/
def render (header : List Text) (rows : List (List Text)) : Text :=
  if rows.isEmpty then []
  else
    let lines := header.map (·.map Text.toUpper) :: rows.map (·.map flatten)
    alignText (Text.join "\n" (lines.map (Text.join "\t")))

end TwigLint.Table
