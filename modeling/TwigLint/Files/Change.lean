import TwigLint.Files.Tree

/-! # Changes of files

What is done to files, and what someone who watches their directories sees of it.
-/

namespace TwigLint

/-- A change of the files. -/
inductive FileChange where
  | write (path content : Text)
  | remove (path : Text)
  | makeFolder (path : Text)
  | changeMode (path : Text)

/-- What is seen of a change, with the path of the file or directory. -/
inductive FileEvent where
  | folderCreated (path : Text)
  | created (path : Text)
  | written (path : Text)
  | removed (path : Text)
  | modeChanged (path : Text)
  deriving DecidableEq, Repr

def FileEvent.path : FileEvent → Text
  | folderCreated p | created p | written p | removed p | modeChanged p => p

namespace FileTree

/-- The beginnings of a path that name its parent folders, outermost first. -/
def parents (path : Text) : List Text :=
  let es := Path.elements path
  (List.range (es.length - 1)).map fun i => Text.join "/" (es.take (i + 1))

/-- The folders of a path that do not exist yet. -/
def missingFolders (t : FileTree) (paths : List Text) : List FileEvent :=
  (paths.filter fun p => (t.find p).toOption.isNone).map .folderCreated

/-- The tree after a change, and what is seen of it. -/
def change (t : FileTree) : FileChange → FileTree × List FileEvent
  | .write path content =>
    let exists? := (t.find path).toOption.isSome
    (t.write path content,
      t.missingFolders (parents path) ++ [if exists? then .written path else .created path])
  | .remove path =>
    if (t.find path).toOption.isSome then (t.remove path, [.removed path]) else (t, [])
  | .makeFolder path => (t.makeFolder path, t.missingFolders (parents path ++ [path]))
  | .changeMode path =>
    (t, if (t.find path).toOption.isSome then [.modeChanged path] else [])

/-- The tree after some changes, one after another, and what is seen of them. -/
def changes (t : FileTree) (cs : List FileChange) : FileTree × List FileEvent :=
  cs.foldl (fun (t, events) c =>
    let (t, more) := t.change c
    (t, events ++ more)) (t, [])

end FileTree

end TwigLint
