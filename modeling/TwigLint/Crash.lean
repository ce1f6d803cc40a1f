import TwigLint.Text.Basic

/-! # Crashes

The ways in which an operation can break off instead of answering.  They are causes, not texts;
`Crash.message` has the wording.
-/

namespace TwigLint

inductive Crash where
  /-- A range whose end lies before its start. -/
  | badRange (stop : Int)
  /-- A value that is not there was used. -/
  | missingValue
  /-- A text was to be repeated a negative number of times. -/
  | negativeRepeat
  /-- A text was to be repeated so often that its length does not fit. -/
  | hugeRepeat
  /-- A collection of some type was looked up among keys. -/
  | collectionKey (type : Text)
  /-- A failed registration that was declared impossible. -/
  | because (reason : Text)
  deriving DecidableEq, Repr

namespace Crash

def message : Crash → Text
  | badRange stop => "runtime error: slice bounds out of range [:" ++ Text.ofInt stop ++ "]"
  | missingValue => "runtime error: invalid memory address or nil pointer dereference"
  | negativeRepeat => "strings: negative Repeat count"
  | hugeRepeat => "strings: Repeat output length overflow"
  | collectionKey type => "runtime error: hash of unhashable type " ++ type
  | because reason => reason

end Crash

end TwigLint
