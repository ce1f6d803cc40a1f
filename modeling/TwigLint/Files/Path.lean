import TwigLint.Text.Basic

/-! # File paths

Paths with slashes, treated as text.  Nothing here looks at files.
-/

namespace TwigLint.Path

/-- The separator of path elements. -/
def slash : UInt8 := '/'

/-- The path starts at the root of all files. -/
def isAbsolute (p : Text) : Bool := p.head? == some slash

/-- The elements of a path, empty ones left out. -/
def elements (p : Text) : List Text := (p.splitOn slash).filter (!·.isEmpty)

/-- Adds an element to a list of elements in reverse: `.` adds nothing, and `..` takes one away
where there is one. -/
def addElement (absolute : Bool) (reversed : List Text) (e : Text) : List Text :=
  if e == "." then reversed
  else if e == ".." then
    match reversed with
    | [] => if absolute then [] else [e]
    | last :: rest => if last == ".." then e :: reversed else rest
  else e :: reversed

/-- The shortest path that names the same place. -/
def clean (p : Text) : Text :=
  let absolute := isAbsolute p
  let kept := ((elements p).foldl (addElement absolute) []).reverse
  let joined := Text.join [slash] kept
  if absolute then slash :: joined else if joined.isEmpty then "." else joined

/-- Path `q` below path `p`, cleaned. -/
def join (p q : Text) : Text :=
  if p.isEmpty then (if q.isEmpty then [] else clean q)
  else clean (p ++ slash :: q)

/-- The last element of a path. -/
def base (p : Text) : Text :=
  match (elements p).getLast? with
  | some e => e
  | none => if p.isEmpty then "." else [slash]

/-- Everything before the last slash, cleaned. -/
def dir (p : Text) : Text :=
  clean ((p.reverse.dropWhile (· != slash)).reverse)

end TwigLint.Path
