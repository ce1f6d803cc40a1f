import TwigLint.Files.Tree
import TwigLint.Text.Digest

/-! # Names of stored objects

A repository names what it stores by a digest of its kind, size and content: the contents of files,
the folders, and the commits.  Equal contents therefore have equal names, and the name of a commit
depends on all files and commits that it stands for.
-/

namespace TwigLint

namespace ObjectName

/-- The name of an object of some kind, twenty bytes. -/
def of (kind content : Text) : Text :=
  Digest.of (kind ++ " " ++ Text.ofNat content.length ++ (0 : UInt8) :: content)

mutual

/-- The name of a file or folder.  The entries of a folder are in the order of their names, where a
folder counts as if its name ended with a slash. -/
def ofTree : FileTree → Text
  | .file content => of "blob" content
  | .folder es => of "tree" (((entries es).mergeSort fun a b => a.1.le b.1).flatMap Prod.snd)

/-- The entries of a folder, each behind the text by which it is ordered. -/
def entries : List (Text × FileTree) → List (Text × Text)
  | [] => []
  | (name, t) :: rest =>
    let (mode, key) : Text × Text :=
      if t.isFolder then ("40000 ", name ++ "/") else ("100644 ", name)
    (key, mode ++ name ++ (0 : UInt8) :: ofTree t) :: entries rest

end

/-- The name of a commit in hexadecimal digits.  Its signature tells who made it and when. -/
def ofCommit (files : FileTree) (parent : Option Text) (signature message : Text) : Text :=
  let parents : Text := match parent with
    | some p => "parent " ++ p ++ "\n"
    | none => []
  Digest.hex (of "commit" ("tree " ++ Digest.hex (ofTree files) ++ "\n" ++ parents ++
    "author " ++ signature ++ "\ncommitter " ++ signature ++ "\n\n" ++ message))

/-- A text stands for a name that it starts.  Pairs of digits may be written with capitals, a digit
behind the last pair only if all are small. -/
def isAbbreviation (t name : Text) : Bool :=
  let pairs := t.take (t.length / 2 * 2)
  !t.isEmpty && pairs.all (fun b => (Text.hexValue? b).isSome) &&
    Text.startsWith name (pairs.map Text.toLower) &&
    (t.length % 2 == 0 || Text.startsWith name t)

end ObjectName

end TwigLint
