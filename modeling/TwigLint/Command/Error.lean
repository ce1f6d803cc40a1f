import TwigLint.Config.Validate

/-! # Errors of commands

Why a command did not succeed, what is printed about it, and the exit status that it gives.
-/

namespace TwigLint

inductive CommandError where
  /-- Some finding is severe enough to fail the run.  The report has been printed. -/
  | lintFailed
  /-- A setting cannot be used. -/
  | setting (field message : Text)
  /-- The configuration cannot be used. -/
  | invalid (c : InvalidConfig)
  /-- A command failed, with a hint and an exit status of its own unless that is zero. -/
  | failed (command : Text) (cause : Option CommandError) (suggestion : Text) (exitCode : Int)
  /-- An error with the circumstances in which it arose. -/
  | during (circumstances : Text) (cause : Option CommandError)
  | other (message : Text)
  /-- The command broke off. -/
  | crashed (c : Crash)

namespace CommandError

/-- The message of an error. -/
def message : CommandError → Text
  | lintFailed => "diagnostics at or above the fail-on severity"
  | setting field m => "config error in " ++ field ++ ": " ++ m
  | invalid c => c.message
  | failed command none _ _ => "command " ++ command ++ " failed: <nil>"
  | failed command (some cause) _ _ => "command " ++ command ++ " failed: " ++ cause.message
  | during circumstances none => circumstances ++ ": %!w(<nil>)"
  | during circumstances (some cause) => circumstances ++ ": " ++ cause.message
  | other m => m
  | crashed c => c.message

/-- The error, and what it was caused by in turn. -/
def causes : CommandError → List CommandError
  | failed command (some cause) s n => failed command (some cause) s n :: cause.causes
  | during circumstances (some cause) => during circumstances (some cause) :: cause.causes
  | e => [e]

def isLintFailed : CommandError → Bool
  | lintFailed => true
  | _ => false

/-- The error is about settings. -/
def isSetting : CommandError → Bool
  | setting _ _ | invalid _ => true
  | _ => false

/-- The hint and the exit status of a failed command. -/
def failure? : CommandError → Option (Text × Int)
  | failed _ _ suggestion exitCode => some (suggestion, exitCode)
  | _ => none

/-- The hint and exit status of the outermost failed command. -/
def outermost? (e : CommandError) : Option (Text × Int) := e.causes.findSome? failure?

/-- The exit status for findings that fail a run, for bad usage, and for anything else. -/
def failedStatus : Int := 1

def usageStatus : Int := 2

def otherStatus : Int := 3

/-- The exit status. -/
def exitCode (e : CommandError) : Int :=
  match e.outermost?.filter (·.2 != 0) with
  | some (_, code) => code
  | none =>
    if e.causes.any isLintFailed then failedStatus
    else if e.causes.any isSetting then usageStatus
    else otherStatus

/-- The failure of a command, with the exit status that belongs to its cause. -/
def ofCause (command : Text) (cause : Option CommandError) : CommandError :=
  failed command cause [] ((cause.map exitCode).getD 0)

/-- The failure of a command because of how it was used. -/
def usage (command : Text) (cause : Option CommandError) (suggestion : Text) : CommandError :=
  failed command cause suggestion usageStatus

/-- What is printed about an error. -/
def printed (e : CommandError) : Text :=
  if e.causes.any isLintFailed then []
  else
    let hint : Text := (e.outermost?.map Prod.fst).getD []
    let advice : Text := if hint.isEmpty then "" else "Suggestion: " ++ hint ++ "\n"
    "Error: " ++ e.message ++ "\n" ++ advice

end CommandError

end TwigLint
