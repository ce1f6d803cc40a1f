import TwigLint.Lint.Scope.Basic

/-! # Suggestions for unknown names

The visible name that is nearest to an unknown one, where nearness is the least number of bytes to
insert, delete or substitute.
-/

namespace TwigLint

namespace EditDistance

/-- The rest of a row of the table of distances.  `diagonal` and `above` are the entries of the row
before, `left` is the last entry of this row. -/
def rowTail (a : UInt8) : (target : Text) → (diagonal : Nat) → (above : List Nat) → (left : Nat) →
    List Nat
  | b :: target, diagonal, up :: above, left =>
    let entry := min (min (up + 1) (left + 1)) (diagonal + if a == b then 0 else 1)
    entry :: rowTail a target up above entry
  | _, _, _, _ => []

/-- The row of the table for one more byte of the source. -/
def nextRow (target : Text) (row : List Nat) (a : UInt8) : List Nat :=
  match row with
  | [] => []
  | first :: above => (first + 1) :: rowTail a target first above (first + 1)

/-- Distances from the whole of `source` to the beginnings of `target`. -/
def lastRow (source target : Text) : List Nat :=
  source.foldl (nextRow target) (List.range (target.length + 1))

end EditDistance

/-- The least number of insertions, deletions and substitutions of single bytes that turn one text
into the other. -/
def editDistance (source target : Text) : Nat :=
  if source == target then 0 else (EditDistance.lastRow source target).getLastD 0

namespace Tracker

/-- Suggestions differ in at most this many bytes. -/
def maxDistance : Nat := 2

/-- A name can be suggested: it is not empty, not the name itself, and not private. -/
def isCandidate (name candidate : Text) : Bool :=
  !candidate.isEmpty && candidate != name && candidate.head? != some '_'

/-- The better of the best suggestion so far, with its distance, and a candidate. -/
def improve (name : Text) (best : Text × Nat) (candidate : Text) : Text × Nat :=
  if isCandidate name candidate then
    let d := editDistance name candidate
    if d < best.2 && d < name.length then (candidate, d) else best
  else best

/-- The nearest visible name, the alphabetically first one of several; empty when none is near
enough or the name is too short. -/
def suggest (t : Tracker) (name : Text) : Text :=
  (t.visible.foldl (improve name) ([], maxDistance + 1)).1

/-- The question that goes with a suggestion. -/
def didYouMean (t : Tracker) (name : Text) : Text :=
  let s := t.suggest name
  if s.isEmpty then [] else "Did you mean '" ++ s ++ "'?"

end Tracker

end TwigLint
