import TwigLint.Component.Load
import TwigLint.Files.Change
import TwigLint.Watch.Scheduler

/-! # Watching files

A watcher runs once in full and then again for the components whose files change.  It watches the
project directories and the directories below them, except for hidden and vendored ones.
-/

namespace TwigLint

/-- Why a watcher does not watch. -/
inductive WatchError where
  | noPaths
  | noRun
  | unreadable (path : Text) (e : FileError)
  | schedule (e : SchedulerError)
  | alreadyRunning

def WatchError.message : WatchError → Text
  | .noPaths => "no paths to watch"
  | .noRun => "nil run function"
  | .unreadable path e => "failed to watch " ++ path ++ ": " ++ e.message
  | .schedule e => e.message
  | .alreadyRunning => "watcher already running"

namespace Watcher

/-- The directory is not watched. -/
def isSkipped (name : Text) : Bool :=
  name.startsWith "." || name == "node_modules" || name == "vendor"

mutual

/-- A folder and those below it that are watched. -/
def folders (path : Text) : FileTree → List Text
  | .file _ => []
  | .folder es => path :: foldersBelow path es

/-- The watched folders among the entries of a folder. -/
def foldersBelow (path : Text) : List (Text × FileTree) → List Text
  | [] => []
  | (name, t) :: rest =>
    (if isSkipped name then [] else folders (Path.join path name) t) ++ foldersBelow path rest

end

/-- The absolute paths of the folders that are watched. -/
def watched (w : Workspace) (paths : List Text) : Except WatchError (List Text) := do
  if paths.isEmpty then throw .noPaths
  let found ← paths.mapM fun path =>
    match w.find path with
    | .ok t => .ok (folders (w.absolute path) t)
    | .error fault => .error (.unreadable path ⟨"lstat", path, fault⟩)
  return found.flatten

/-- The definition that an event concerns, if a run is needed. -/
def concerned (w : Workspace) : FileEvent → Option Text
  | .folderCreated _ | .modeChanged _ => none
  | .created path | .written path | .removed path =>
    if (Path.base path).startsWith "." then none
    else (Component.definitionFor path).map w.absolute

/-- The definitions for which watched changes need a run, in order. -/
def definitions (w : Workspace) (folders : List Text) (events : List FileEvent) : List Text :=
  let seen := events.filter fun e => folders.contains (Path.dir (w.absolute e.path))
  Text.sort (seen.filterMap (concerned w)).eraseDups

/-- The definitions for which a watcher on some paths runs again after changes. -/
def watch (w : Workspace) (paths : List Text) (schedule : Text) (cs : List FileChange) :
    Except WatchError (List Text) := do
  let folders ← watched w paths
  let _ ← (Scheduler.new schedule).start.mapError .schedule
  return definitions w folders (w.files.changes cs).2

end Watcher

end TwigLint
