import TwigLint.Files.Glob
import TwigLint.Files.Tree

/-! # Ignored files

A file that is listed in a folder's `.gitignore` is not taken into a repository.  Each line of the
list is a rule for the files below the folder, and the last rule that applies to a file counts.
-/

namespace TwigLint

namespace Ignore

/-- A rule for the files below a place. -/
structure Rule where
  place : List Text
  /-- The patterns of the elements of a path, or a single pattern for any element. -/
  pattern : List Text
  /-- The rule takes files in again. -/
  isException : Bool
  foldersOnly : Bool
  deriving DecidableEq, Repr

/-- The name of the lists of rules. -/
def listName : Text := ".gitignore"

/-- The rule of a line of a list. -/
def Rule.ofLine (place : List Text) (line : Text) : Rule :=
  let isException := line.startsWith "!"
  let t : Text := if isException then line.drop 1 else line
  let t : Text := if t.endsWith "\\ " then t else t.trimRight (· == ' ')
  let foldersOnly := t.endsWith "/"
  ⟨place, Text.splitOn '/' (if foldersOnly then t.dropLast else t), isException, foldersOnly⟩

/-- A file has the path that a rule is about; `matched` tells that an element was matched before,
and `skips` that elements may be left out in front of the next one. -/
def Rule.fitsPath (r : Rule) (isFolder : Bool) :
    (skips matched : Bool) → (patterns path : List Text) → Bool
  | _, matched, [], path => matched && !(r.foldersOnly && !isFolder && path.isEmpty)
  | skips, matched, p :: rest, path =>
    if p.isEmpty then r.fitsPath isFolder false matched rest path
    else if p == "**" then r.fitsPath isFolder true matched rest path
    else if p.includes "**" || path.isEmpty then false
    else if skips then
      match Glob.afterMatch? p path with
      | some below => r.fitsPath isFolder false true rest below
      | none => r.fitsPath isFolder false false rest []
    else path.head?.any (Glob.isMatch p) && r.fitsPath isFolder false true rest (path.drop 1)

/-- An element of a path has the name that a rule is about. -/
def Rule.fitsName (r : Rule) (isFolder : Bool) (pattern : Text) (path : List Text) : Bool :=
  match Glob.afterMatch? pattern path with
  | some below => !(r.foldersOnly && !isFolder && below.isEmpty)
  | none => false

/-- The rule applies to a file or folder. -/
def Rule.applies (r : Rule) (isFolder : Bool) (path : List Text) : Bool :=
  r.place.isPrefixOf path && r.place.length < path.length &&
    let below := path.drop r.place.length
    match r.pattern with
    | [p] => r.fitsName isFolder p below
    | ps => r.fitsPath isFolder false false ps below

/-- The last rule that applies to a file or folder excludes it. -/
def excludes (rules : List Rule) (isFolder : Bool) (path : List Text) : Bool :=
  (rules.reverse.find? (·.applies isFolder path)).any (!·.isException)

/-- The rules of a list; empty lines and comments are none. -/
def ofList (place : List Text) (t : Text) : List Rule :=
  let lines := (t.splitOn '\n').map fun l => l.dropSuffix "\r"
  (lines.filter fun l => !l.startsWith "#" && !l.trimSpace.isEmpty).map (.ofLine place)

mutual

/-- The rules for the files of a folder at a place, those of inner folders last.  Folders that its
own list excludes have no rules. -/
def rules (place : List Text) : FileTree → List Rule
  | .file _ => []
  | .folder es =>
    let own := match es.lookup listName with
      | some (.file t) => ofList place t
      | _ => []
    let inner := (innerRules place es).mergeSort fun a b => a.1.le b.1
    own ++ (inner.filter fun (name, _) => !excludes own true (place ++ [name])).flatMap Prod.snd

/-- The rules of each folder among some entries, with its name. -/
def innerRules (place : List Text) : List (Text × FileTree) → List (Text × List Rule)
  | [] => []
  | (name, t) :: rest => (name, rules (place ++ [name]) t) :: innerRules place rest

end

end Ignore

end TwigLint
