import TwigLint.Files.Ignore
import TwigLint.Files.ObjectName
import TwigLint.Files.Revision

/-! # Histories of files

A repository has commits in a row, the last of which is its head, and a working directory.  All that
changed since a revision is what differs between its commit, the head, and the working directory.
-/

namespace TwigLint

structure Commit where
  /-- The digits that name the commit. -/
  id : Text
  author : Text
  email : Text
  message : Text
  /-- In seconds since the epoch. -/
  time : Int
  files : FileTree

/-- The commits of a repository from the first to the last, and the absolute path of its top
directory. -/
structure History where
  root : Text
  commits : List Commit

/-- Why the changes since a revision are not known. -/
inductive HistoryError where
  | noRepository (path : Text)
  | unknownUser (path name : Text)
  | notFound (revision : Text)
  /-- The revision goes back beyond the first commit. -/
  | exhausted (revision : Text)
  | noMessage (revision pattern : Text)
  | malformed (revision : Text) (fault : Revision.Fault)

namespace HistoryError

def unresolved (revision reason : Text) : Text :=
  "failed to resolve revision " ++ revision.quoted ++ ": " ++ reason

def message : HistoryError → Text
  | noRepository path => "failed to open repository at " ++ path ++ ": repository does not exist"
  | unknownUser path name =>
    "failed to open repository at " ++ path ++ ": user: unknown user " ++ name
  | notFound revision => unresolved revision "reference not found"
  | exhausted revision => unresolved revision "EOF"
  | noMessage revision pattern =>
    unresolved revision ("no commit message match regexp: " ++ pattern.quoted)
  | malformed revision fault => unresolved revision fault.message

end HistoryError

namespace History

/-- A repository without commits. -/
def new (root : Text) : History := ⟨root, []⟩

/-- The files of the last commit. -/
def lastFiles (h : History) : FileTree := (h.commits.getLast?.map (·.files)).getD .empty

/-- All files of a tree with their paths, without what a repository keeps for itself. -/
def contents (t : FileTree) : List (Text × Text) :=
  (t.walk (· == ".git") ".").filter fun (p, _) => Path.base p != ".git"

/-- The files of a working directory that a repository takes, of which it has some already.  It
takes no others that are ignored. -/
def taken (known working : FileTree) : FileTree :=
  let rules := Ignore.rules [] working
  .ofFiles ((contents working).filter fun (p, _) =>
    (known.find p).toOption.any (!·.isFolder) || !Ignore.excludes rules false (Path.elements p))

/-- The repository with one more commit of the files of a working directory, made at a time in
seconds since the epoch. -/
def commit (h : History) (author email message : Text) (time : Int) (working : FileTree) :
    History :=
  let files := taken h.lastFiles working
  let signature := author ++ " <" ++ email ++ "> " ++ Text.ofInt time ++ " +0000"
  let id := ObjectName.ofCommit files (h.commits.getLast?.map (·.id)) signature message
  { h with commits := h.commits ++ [⟨id, author, email, message, time, files⟩] }

/-- The name of the only branch. -/
def branch : Text := "master"

/-- The ways to write the last commit. -/
def headNames : List Text :=
  ["HEAD", branch, "heads/" ++ branch, "refs/heads/" ++ branch]

/-- A commit with its ancestors, the nearest first. -/
abbrev Lineage := List Commit

/-- The commit that is some generations older. -/
def older (revision : Text) (n : Nat) (line : Lineage) : Except HistoryError Lineage :=
  if n < line.length then .ok (line.drop n) else .error (.exhausted revision)

/-- The first of the commits that a text abbreviates, in the order of their names. -/
def abbreviated? (h : History) (t : Text) : Option Text :=
  (Text.sort ((h.commits.map (·.id)).filter (ObjectName.isAbbreviation t))).head?

/-- The commit to which a part of a revision leads. -/
def follow (h : History) (revision : Text) (line : Lineage) : Revision.Part →
    Except HistoryError Lineage
  | .reference name =>
    match h.abbreviated? name with
    | some id => .ok (h.commits.reverse.dropWhile (·.id != id))
    | none =>
      if headNames.contains name && !h.commits.isEmpty then .ok h.commits.reverse
      else .error (.notFound revision)
  | .generations n => older revision n line
  | .parent n => if n < 2 then older revision n line else .error (.exhausted revision)
  | .message written pattern negated =>
    match line.dropWhile fun c => pattern.occursIn c.message == negated with
    | [] => .error (.noMessage revision written)
    | found => .ok found
  | _ => .ok line

/-- The commit of a revision. -/
def resolve (h : History) (revision : Text) : Except HistoryError Commit := do
  let parts ← (Revision.parse revision).mapError (.malformed revision)
  match ← parts.foldlM (follow h revision) [] with
  | c :: _ => return c
  | [] => throw (.notFound revision)

/-- The paths at which two trees differ. -/
def differences (a b : FileTree) : List Text :=
  let fa := contents a
  let fb := contents b
  let changed := (fa.filter fun (p, c) => fb.lookup p != some c).map Prod.fst
  let added := (fb.filter fun (p, _) => (fa.lookup p).isNone).map Prod.fst
  changed ++ added

/-- The absolute paths of the files changed since a revision, committed or not, in order. -/
def changedFiles (h : History) (w : Workspace) (revision : Text) :
    Except HistoryError (List Text) := do
  let start ← h.resolve revision
  let head ← h.resolve "HEAD"
  let changed := differences start.files head.files ++
    differences head.files (taken head.files w.files)
  return Text.sort ((changed.map (Path.join h.root)).eraseDups)

/-- The user whose home directory a path starts with: a tilde, perhaps a name, and a slash. -/
def homeOf? (path : Text) : Option Text :=
  if path.startsWith "~" && path.contains Path.slash then
    some ((path.drop 1).takeWhile (· != Path.slash))
  else none

/-- The repository to which a directory belongs.  No home directory belongs to one, and only the
user at work has one. -/
def enclosing (h? : Option History) (w : Workspace) (path : Text) : Except HistoryError History :=
  match h?, homeOf? path with
  | none, none | _, some [] => .error (.noRepository path)
  | _, some name => .error (.unknownUser path name)
  | some h, none =>
    let full := w.absolute path
    if full == h.root || full.startsWith (h.root ++ "/") then .ok h
    else .error (.noRepository path)

end History

end TwigLint
