import TwigLint.Command.Line
import TwigLint.Command.Lint
import TwigLint.Command.Rules
import TwigLint.Command.Watch
import TwigLint.Template.Node.Walk

/-! # Executing a command line

The command that the arguments name is found, its flags are read, the number of its other arguments
is checked, and then it runs.
-/

namespace TwigLint

namespace CommandName

/-- The version of the program. -/
def programVersion : Text := "0.1.0"

/-- What the version command prints. -/
def versionText (s : Session) : Text :=
  "sdclint " ++ programVersion ++ "\nGit Commit: unknown\nBuild Date: unknown\nGo Version: " ++
    s.toolchain ++ "\nOS/Arch: " ++ s.platform ++ "\n"

/-- A short help. -/
def helpText : Text :=
  let lines : List Text := suggested.map fun c => "  " ++ c.label ++ "\n"
  "Usage:\n  sdclint [command]\n\nAvailable Commands:\n" ++ lines.flatten

/-- Prints the tree of a template. -/
def astOutcome (s : Session) (path : Text) : Except CommandError Outcome := do
  let usage (m hint : Text) : CommandError := .usage "ast" (some (.other m)) hint
  let source ←
    if path == "-" then pure s.input
    else (s.workspace.read path).mapError fun e => usage e.message []
  match parseTemplate Parser.defaultDepth source with
  | .error e => throw (usage (path ++ ": " ++ e.text) "fix the syntax error first")
  | .ok tree => return .printing tree.dump

/-- The shells for which there are completions. -/
def shells : List Text := ["bash", "zsh", "fish", "powershell"]

/-- Prints the words that a shell may complete. -/
def completionOutcome (shell : Text) : Except CommandError Outcome :=
  if shells.contains shell then
    .ok (.printing (suggested.flatMap fun c => c.label ++ [('\n' : UInt8)]))
  else .error (.other ("unsupported shell: " ++ shell))

/-- Runs a command with its arguments. -/
def run (s : Session) (c : CommandName) (a : Arguments) : Except CommandError Outcome :=
  match c with
  | root | help => .ok (.printing helpText)
  | ast => astOutcome s (a.others.headD [])
  | completion => completionOutcome (a.others.headD [])
  | lint => LintCommand.execute s a
  | rules => RulesCommand.execute s a
  | version => .ok (.printing (versionText s))
  | watch => WatchCommand.execute s a

/-- Executes a command line, which may end with an error. -/
def attempt (s : Session) (arguments : List Text) : Except CommandError Outcome := do
  let (c, rest) ← (find arguments).mapError .other
  let a ← (Arguments.read c.flags rest).mapError fun e => .other e.message
  if a.truth "help" then return .printing helpText
  if a.truth "version" then
    return .printing (program ++ " version " ++ programVersion ++ "\n")
  match c.argumentComplaint? a.others.length with
  | some m => throw (.other m)
  | none => run s c a

/-- Executes a command line. -/
def execute (s : Session) (arguments : List Text) : Outcome :=
  match attempt s arguments with
  | .ok o => o
  | .error e => .failing e

end CommandName

end TwigLint
