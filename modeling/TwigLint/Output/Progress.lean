import TwigLint.Crash
import TwigLint.Number.Shortest

/-! # Progress bars

A line that shows how much of a run is done.  The line is written anew with each change.
-/

namespace TwigLint

/-- How much of a run is done.  Nothing is shown of a run of nothing. -/
structure Progress where
  total : Int
  done : Int
  deriving DecidableEq, Repr

namespace Progress

/-- A bar that has not started. -/
def idle : Progress := ⟨0, 0⟩

/-- The width of a bar in characters. -/
def width : Int := 40

/-- The share that is done, in percent. -/
def percent (p : Progress) : Double := ((Double.ofInt p.done).div (.ofInt p.total)).mul (.ofInt 100)

/-- How much of the bar is filled. -/
def filled (p : Progress) : Int := (((Double.ofInt width).mul p.percent).divNat 100).toInt64

/-- A mark of three bytes, repeated. -/
def marks (mark : Text) (n : Int) : Except Crash Text :=
  if n < 0 then .error .negativeRepeat
  else if 0x8000000000000000 ≤ n * mark.length then .error .hugeRepeat
  else .ok (mark.repeated n.toNat)

/-- The line, with the given text for the number of components per second. -/
def line (rate : Text) (p : Progress) : Except Crash Text := do
  if p.total = 0 then return []
  let full ← marks "█" p.filled
  let rest ← marks "░" (width - p.filled)
  return "\rValidating: [" ++ full ++ rest ++ "] " ++ FloatStyle.fixed 1 p.percent ++ "% (" ++
    Text.ofInt p.done ++ "/" ++ Text.ofInt p.total ++ ") " ++ rate ++ " components/s"

/-- The line of a run that has ended. -/
def lastLine (rate : Text) (p : Progress) : Except Crash Text := do
  return (← line rate { p with done := p.total }) ++ "\n"

/-- The text for a run that broke off. -/
def errorLine (message : Text) : Text := "\nError: " ++ message ++ "\n"

end Progress

end TwigLint
