import TwigLint.Files.Path

/-! # Trees of files

The files that a run can see: a tree of directories below the working directory.
-/

namespace TwigLint

/-- A file with its content, or a directory with its named entries. -/
inductive FileTree where
  | file (content : Text)
  | folder (entries : List (Text × FileTree))

/-- Why a file cannot be used. -/
inductive FileFault where
  | missing
  | notFolder
  | isFolder
  deriving DecidableEq, Repr

/-- What was tried on which path, and why it failed. -/
structure FileError where
  action : Text
  path : Text
  fault : FileFault
  deriving DecidableEq, Repr

/-- The wording of a fault. -/
def FileFault.message : FileFault → Text
  | .missing => "no such file or directory"
  | .notFolder => "not a directory"
  | .isFolder => "is a directory"

/-- The message of an error. -/
def FileError.message (e : FileError) : Text :=
  e.action ++ " " ++ e.path ++ ": " ++ e.fault.message

namespace FileTree

instance : Inhabited FileTree := ⟨.folder []⟩

/-- A tree without files. -/
def empty : FileTree := .folder []

def isFolder : FileTree → Bool
  | .folder _ => true
  | .file _ => false

/-- The entries of a folder. -/
def entries : FileTree → List (Text × FileTree)
  | .folder es => es
  | .file _ => []

/-- The entry with a name. -/
def entry? (t : FileTree) (name : Text) : Option FileTree := t.entries.lookup name

/-- The entries with one of them replaced, added or taken away. -/
def setEntry (es : List (Text × FileTree)) (name : Text) (t? : Option FileTree) :
    List (Text × FileTree) :=
  match t? with
  | none => es.filter (·.1 != name)
  | some t =>
    if es.any (·.1 == name) then es.map fun (n, old) => (n, if n == name then t else old)
    else es ++ [(name, t)]

/-- Changes what stands at a place; folders on the way are made. -/
def alter (change : Option FileTree → Option FileTree) : List Text → FileTree → FileTree
  | [], t => (change (some t)).getD t
  | [name], t => .folder (setEntry t.entries name (change (t.entry? name)))
  | name :: next :: rest, t =>
    let below := alter change (next :: rest) ((t.entry? name).getD empty)
    .folder (setEntry t.entries name (some below))

/-- Writes a file. -/
def write (t : FileTree) (path content : Text) : FileTree :=
  t.alter (fun _ => some (.file content)) (Path.elements path)

/-- Makes a folder unless it exists. -/
def makeFolder (t : FileTree) (path : Text) : FileTree :=
  t.alter (fun old => some (old.getD empty)) (Path.elements path)

/-- Takes a file away. -/
def remove (t : FileTree) (path : Text) : FileTree :=
  t.alter (fun _ => none) (Path.elements path)

/-- The tree with the given files; a path with a slash at its end is an empty folder. -/
def ofFiles (files : List (Text × Text)) : FileTree :=
  files.foldl (fun t (path, content) =>
    if path.endsWith "/" then t.makeFolder path else t.write path content) empty

/-- What stands at the place with these elements. -/
def locate : List Text → FileTree → Except FileFault FileTree
  | [], t => .ok t
  | name :: rest, t =>
    match t with
    | .file _ => .error .notFolder
    | .folder es =>
      match es.lookup name with
      | some below => locate rest below
      | none => .error .missing

/-- What stands at a path relative to the root of the tree.  Nothing is known of other places. -/
def find (t : FileTree) (path : Text) : Except FileFault FileTree :=
  if path.isEmpty then .error .missing
  else
    let path := Path.clean path
    let place := Path.elements path
    if Path.isAbsolute path || place.head?.any fun (e : Text) => e == ".." then .error .missing
    else if path == "." then .ok t
    else locate place t

mutual

/-- All files with their paths below `root`, folders in the order of their names, without the
folders that `skip` names. -/
def walk (skip : Text → Bool) (root : Text) : FileTree → List (Text × Text)
  | .file content => [(root, content)]
  | .folder es => ((walkEntries skip root es).mergeSort fun a b => a.1.le b.1).flatMap Prod.snd

/-- The files below each entry of a folder, with the name of the entry. -/
def walkEntries (skip : Text → Bool) (root : Text) :
    List (Text × FileTree) → List (Text × List (Text × Text))
  | [] => []
  | (name, t) :: rest =>
    let files := if t.isFolder && skip name then [] else walk skip (Path.join root name) t
    (name, files) :: walkEntries skip root rest

end

end FileTree

/-- The files a run can see and the absolute path of its working directory. -/
structure Workspace where
  folder : Text
  files : FileTree

namespace Workspace

/-- The absolute path of a place. -/
def absolute (w : Workspace) (path : Text) : Text :=
  if Path.isAbsolute path then Path.clean path else Path.join w.folder path

/-- The path of a place relative to the working directory, if it lies there. -/
def relative (w : Workspace) (path : Text) : Text :=
  let full := w.absolute path
  if full == w.folder then "."
  else full.dropPrefix (w.folder ++ "/")

/-- What stands at a path. -/
def find (w : Workspace) (path : Text) : Except FileFault FileTree :=
  if path.isEmpty then .error .missing else w.files.find (w.relative path)

/-- The content of a file. -/
def read (w : Workspace) (path : Text) : Except FileError Text :=
  match w.find path with
  | .ok (.file content) => .ok content
  | .ok (.folder _) => .error ⟨"read", path, .isFolder⟩
  | .error fault => .error ⟨"open", path, fault⟩

end Workspace

end TwigLint
