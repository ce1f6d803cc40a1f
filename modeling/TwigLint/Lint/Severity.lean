import TwigLint.Text.Quoted

/-! # Severities

A severity is a level from 0, the most severe, to 7.  Levels outside this range can be given, are
compared like any other, and have a name of their own.
-/

namespace TwigLint

structure Severity where
  level : Int
  deriving DecidableEq, Repr, Inhabited

namespace Severity

def emergency : Severity := ⟨0⟩
def alert : Severity := ⟨1⟩
def critical : Severity := ⟨2⟩
def error : Severity := ⟨3⟩
def warning : Severity := ⟨4⟩
def notice : Severity := ⟨5⟩
def info : Severity := ⟨6⟩
def debug : Severity := ⟨7⟩

/-- Names of the levels, the most severe first. -/
def names : List Text :=
  ["EMERGENCY", "ALERT", "CRITICAL", "ERROR", "WARNING", "NOTICE", "INFO", "DEBUG"]

/-- The level is one of the eight. -/
def isValid (s : Severity) : Bool := 0 ≤ s.level && s.level ≤ 7

def name (s : Severity) : Text :=
  if s.isValid then names.getD s.level.toNat []
  else "SEVERITY(" ++ Text.ofInt s.level ++ ")"

/-- As severe as the other, or more so. -/
def atLeast (s other : Severity) : Bool := s.level ≤ other.level

/-- Short names. -/
def shortNames : List (Text × Severity) :=
  [("WARN", warning), ("ERR", error), ("CRIT", critical), ("EMERG", emergency)]

/-- Reads a name in any case, a short name, or a level. -/
def read? (value : Text) : Option Severity :=
  let word := value.trimSpace.upperAscii
  match shortNames.lookup word with
  | some s => some s
  | none =>
    match names.findIdx? (· == word) with
    | some i => some ⟨i⟩
    | none => (word.toInt64?.map Severity.mk).filter isValid

/-- The message for a text that is no severity. -/
def invalidMessage (value : Text) : Text :=
  "invalid severity " ++ value.quoted ++
    ": must be one of emergency, alert, critical, error, warning, notice, info, debug or 0-7"

end Severity

end TwigLint
