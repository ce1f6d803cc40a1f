import TwigLint.Crash

/-! # Source excerpts

The lines of a source that a message shows.  Line numbers and lengths are 64-bit integers whose sums
wrap around.
-/

namespace TwigLint

/-- The 64-bit integer that a sum wraps around to. -/
def wrap64 (n : Int) : Int := Int.bmod n 0x10000000000000000

namespace Excerpt

/-- The lines of a source, ended by LF or CR LF. -/
def lines (source : Text) : List Text := source.normalizeNewlines.splitOn '\n'

/-- Up to `length` of the given lines, at least one, from the given line on; nothing for a line that
is not there. -/
def ofLines (all : Array Text) (line length : Int) : Except Crash Text :=
  if line < 1 || all.size < line then .ok []
  else
    let stop := min (wrap64 (line - 1 + max length 1)) all.size
    if stop < line - 1 then .error (.badRange stop)
    else .ok (Text.join "\n" (all.extract (line - 1).toNat stop.toNat).toList)

/-- Up to `length` lines of a source, at least one, from the given line on; nothing for a line that
it does not have. -/
def take (source : Text) (line length : Int) : Except Crash Text :=
  ofLines (lines source).toArray line length

/-- A number with blanks on its left up to the given width. -/
def padLeft (width : Nat) (t : Text) : Text := List.replicate (width - t.length) (' ' : UInt8) ++ t

/-- One numbered line, marked when it is the reported one, with a caret under the column. -/
def contextLine (reported column : Int) (width : Nat) (number : Int) (line : Text) : Text :=
  (if number = reported then "-> " else "   ") ++ padLeft width (Text.ofInt number) ++ " | " ++
    line ++ "\n" ++
    if number = reported && 0 < column then
      "   " ++ Text.repeated " " width ++ " | " ++ Text.repeated " " (column - 1).toNat ++ "^\n"
    else []

/-- The reported line and up to `around` lines on both sides of it, numbered. -/
def context (source : Text) (line column around : Int) : Text :=
  let all := lines source
  if source.isEmpty || line < 1 || all.length < line then []
  else
    let first := max (wrap64 (line - 1 - around)) 0
    let last := min (wrap64 (line - 1 + around)) (all.length - 1)
    let width := (Text.ofInt (last + 1)).length
    let shown := (all.drop first.toNat).take (last + 1 - first).toNat
    (shown.zipIdx first.toNat).flatMap fun (text, i) => contextLine line column width (i + 1) text

end Excerpt

end TwigLint
