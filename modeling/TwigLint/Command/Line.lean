import TwigLint.Command.Flag
import TwigLint.Lint.Scope.Suggest

/-! # The command line

The commands with their flags, and which of them a list of arguments names.  Flags may stand in
front of the name of the command, so flags and their values have to be told apart from it.
-/

namespace TwigLint

inductive CommandName where
  /-- The program without a command. -/
  | root
  | ast
  | completion
  | lint
  | rules
  | version
  | watch
  | help
  deriving DecidableEq, Repr

namespace CommandName

/-- The name of the program. -/
def program : Text := "sdclint"

def label : CommandName → Text
  | root => program
  | ast => "ast"
  | completion => "completion"
  | lint => "lint"
  | rules => "rules"
  | version => "version"
  | watch => "watch"
  | help => "help"

/-- The commands that are suggested for a misspelt name. -/
def suggested : List CommandName := [ast, completion, lint, rules, version, watch]

/-- The command with a name. -/
def read? (t : Text) : Option CommandName := (suggested ++ [help]).find? (·.label == t)

/-! ## Flags -/

def globalFlags : List Flag :=
  [⟨"config", some 'c', .text⟩, ⟨"log-level", none, .text⟩, ⟨"log-format", none, .text⟩,
    ⟨"verbose", some 'v', .truth⟩]

def helpFlag : Flag := ⟨"help", some 'h', .truth⟩

def formatFlag : Flag := ⟨"format", some 'f', .text⟩

/-- The flags of a command alone. -/
def ownFlags : CommandName → List Flag
  | root => [⟨"version", none, .truth⟩]
  | lint =>
    [⟨"component", none, .text⟩, formatFlag, ⟨"fail-on", none, .text⟩,
      ⟨"min-severity", none, .text⟩, ⟨"changed-since", none, .text⟩,
      ⟨"workers", some 'w', .number⟩, ⟨"metrics-file", none, .text⟩, ⟨"progress", none, .truth⟩,
      ⟨"report-unused-inputs", none, .truth⟩, ⟨"known-variable", none, .texts⟩,
      ⟨"disable-rule", none, .texts⟩]
  | rules => [formatFlag]
  | watch =>
    [⟨"debounce", none, .duration⟩, ⟨"schedule", none, .text⟩, ⟨"metrics-addr", none, .text⟩,
      formatFlag]
  | ast | completion | version | help => []

/-- All flags of a command. -/
def flags (c : CommandName) : List Flag := c.ownFlags ++ globalFlags ++ [helpFlag]

/-! ## Other arguments -/

/-- Why the number of other arguments is wrong. -/
def argumentComplaint? (c : CommandName) (count : Nat) : Option Text :=
  match c with
  | ast | completion =>
    if count = 1 then none else some ("accepts 1 arg(s), received " ++ Text.ofNat count)
  | rules =>
    if count ≤ 1 then none else some ("accepts at most 1 arg(s), received " ++ Text.ofNat count)
  | _ => none

/-! ## Finding the command -/

/-- The argument is a flag whose value is the next argument, as far as the global flags tell. -/
def takesNext (argument : Text) : Bool :=
  if argument.includes "=" then false
  else if argument.startsWith "--" then
    !globalFlags.any fun f => f.name == argument.drop 2 && f.kind.isOptional
  else if argument.startsWith "-" && argument.length == 2 then
    !globalFlags.any fun f => f.letter == argument[1]? && f.kind.isOptional
  else false

/-- The arguments that are neither flags nor values of flags. -/
def words : List Text → List Text
  | [] => []
  | argument :: rest =>
    if argument == "--" then []
    else if takesNext argument then
      match rest with
      | _ :: next :: later => words (next :: later)
      | _ => []
    else if argument.isEmpty || argument.startsWith "-" then words rest
    else argument :: words rest

/-- The arguments without the first one that is the given word. -/
def withoutWord (word : Text) : List Text → List Text
  | [] => []
  | argument :: rest =>
    if argument == "--" then argument :: rest
    else if takesNext argument then
      match rest with
      | value :: later => argument :: value :: withoutWord word later
      | [] => [argument]
    else if argument == word && !argument.startsWith "-" then rest
    else argument :: withoutWord word rest

/-- Suggestions differ in at most this many bytes, or continue what was typed. -/
def suggestions (typed : Text) : List Text :=
  (suggested.map label).filter fun name =>
    editDistance typed.lowerAscii name ≤ 2 || name.startsWith typed.lowerAscii

/-- The message for a command that does not exist. -/
def unknownMessage (typed : Text) : Text :=
  let lines : List Text := (suggestions typed).map fun s => "\t" ++ s ++ "\n"
  let hint : Text := if lines.isEmpty then "" else "\n\nDid you mean this?\n" ++ lines.flatten
  "unknown command " ++ typed.quoted ++ " for " ++ program.quoted ++ hint

/-- The command that arguments name, and its own arguments. -/
def find (arguments : List Text) : Except Text (CommandName × List Text) :=
  match words arguments with
  | [] => .ok (root, arguments)
  | word :: _ =>
    match read? word with
    | some c => .ok (c, withoutWord word arguments)
    | none => .error (unknownMessage word)

end CommandName

end TwigLint
