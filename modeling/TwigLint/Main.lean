import Std.Time.DateTime.Timestamp
import TwigLint.Command.Execute

/-! # The program

Gathers the surroundings of a command, executes the command line, and carries out what the command
leaves behind.  The files that a command sees are those below the working directory.
-/

namespace TwigLint.Program

/-- The variables that a command looks at. -/
def variableNames : List String :=
  ["SDCLINT_PROJECTS", "SDCLINT_WORKERS", "SDCLINT_FAIL_ON", "SDCLINT_MIN_SEVERITY",
    "SDCLINT_REPORT_UNUSED_INPUTS", "SDCLINT_KNOWN_VARIABLES", "SDCLINT_DISABLED_RULES",
    "SDCLINT_OUTPUT_FORMAT", "SDCLINT_LOGGING_LEVEL", "SDCLINT_LOGGING_FORMAT",
    "SDCLINT_METRICS_ENABLED", "SDCLINT_METRICS_TEXTFILE", "SDCLINT_METRICS_ADDRESS",
    "SDCLINT_TRACING_ENABLED", "SDCLINT_TRACING_ENDPOINT", "SDCLINT_TRACING_INSECURE",
    "SDCLINT_TRACING_SAMPLE_RATIO", "SDCLINT_WATCH_SCHEDULE",
    "SDCLINT_WATCH_DEBOUNCE", "TRACEPARENT", "TRACESTATE"]

def environment : IO Environment := do
  let values ← variableNames.mapM fun name => do return (name, ← IO.getEnv name)
  return values.filterMap fun (name, value) =>
    value.map fun v => (Text.ofString name, Text.ofString v)

/-- A directory or a file with all that is in it.  What cannot be read counts as empty. -/
partial def tree (entry : IO.FS.DirEntry) : IO FileTree := do
  if ← entry.path.isDir then
    let below ← try entry.path.readDir catch _ => pure #[]
    let kept := below.toList.filter (·.fileName != ".git")
    let sorted := kept.mergeSort fun a b => (Text.ofString a.fileName).le (Text.ofString b.fileName)
    return .folder (← sorted.mapM fun e => do return (Text.ofString e.fileName, ← tree e))
  else
    let content ← try IO.FS.readBinFile entry.path catch _ => pure ByteArray.empty
    return .file content.toList

def workspace : IO Workspace := do
  let folder ← IO.currentDir
  return ⟨Text.ofString folder.toString, ← tree ⟨folder, "."⟩⟩

/-- A fresh identifier of so many bytes in hexadecimal digits. -/
def identifier (bytes : Nat) : IO Text := do
  let random ← IO.getRandomBytes bytes.toUSize
  return random.toList.flatMap fun b => Text.hexPadded 2 b.toNat

/-- A fresh identifier in five groups of digits. -/
def groupedIdentifier : IO Text := do
  let groups ← [4, 2, 2, 2, 6].mapM identifier
  return Text.join "-" groups

def now : IO Timestamp := do
  let t ← Std.Time.Timestamp.now
  return .ofEpochSeconds t.toSecondsSinceUnixEpoch.val.toNat

def session (args : List String) : IO Session := do
  let input ← if args.contains "-" then (← IO.getStdin).readBinToEnd else pure ByteArray.empty
  let time ← now
  return ⟨← workspace, ← environment, input.toList, none, ← groupedIdentifier, ← identifier 16,
    time, 0, time.internet, "0.0", "unknown", "unknown"⟩

def print (stream : IO.FS.Stream) (t : Text) : IO Unit := stream.write ⟨t.toArray⟩

/-- Carries out what a command leaves behind. -/
def conclude (o : Outcome) : IO UInt32 := do
  for (path, content) in o.files do
    IO.FS.writeBinFile (path.toString?.getD "") ⟨content.toArray⟩
  print (← IO.getStdout) o.output
  print (← IO.getStderr) o.errorOutput
  return o.exitCode.toNat.toUInt32

end TwigLint.Program

def main (args : List String) : IO UInt32 := do
  let s ← TwigLint.Program.session args
  TwigLint.Program.conclude
    (TwigLint.CommandName.execute s (args.map TwigLint.Text.ofString))
