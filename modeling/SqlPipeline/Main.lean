import SqlPipeline.CommandLine.Session
import Std.Time.DateTime.Timestamp

/-!
# The program

The files that a session may read are loaded into a tree, the session runs on the tree, and what it
has changed is written. All decisions are those of the session.
-/

namespace SqlPipeline.CommandLine

/-- What the arguments may be, in words. -/
def usage : String := "\n".intercalate [
  "Usage: modelflow [OPTIONS] <COMMAND>",
  "",
  "Commands:",
  "  run, build, seed, snapshot, test, compile, ls, plugins",
  "",
  "Options:",
  "  -p, --project-dir <DIR>    Project directory (default: current directory)",
  "  -c, --config <FILE>        Path to config file (default: <DIR>/modelflow.toml)",
  "  -v, --verbose              Enable verbose output",
  "",
  "Options of commands on models:",
  "  -s, --select <SELECTOR>..  Models to include (name, +name, name+, *)",
  "      --exclude <SELECTOR>.. Models to leave out",
  "",
  "Options of commands that run models:",
  "  -t, --threads <NUMBER>     Maximum number of models built at once",
  "  -x, --fail-fast            Stop after the first failure",
  "  -w, --writer <NAME>        Result writer plugin",
  "  -o, --output <FILE>        Where the result writer writes",
  "      --notify <RECIPIENT>   Notification recipient, repeatable",
  ""]

/-- The path of a place from the root. -/
def absolutePath (place : Place) : String := "/" ++ "/".intercalate place

/-- The files that the arguments name: the settings file, and where results are written. -/
def namedFiles (invocation : Invocation) : List String :=
  let settingsFile :=
    invocation.config.getD (Path.join (invocation.projectDir.getD ".") Settings.fileName)
  match invocation.action with
  | .run _ options => settingsFile :: options.output.toList
  | _ => [settingsFile]

/-- The directories that the settings name. -/
def namedDirectories (settings : Settings) : List String :=
  settings.targetDir :: settings.modelPaths.map (Path.join settings.root)

/-- A file with a content. -/
def fileWith (content : ByteArray) : FileEntry :=
  match String.fromUTF8? content with
  | some text => .text text
  | none => .binary content.toList

/-- What the system has at a place. -/
def systemEntry? (place : Place) : IO (Option FileEntry) := do
  let file := (← IO.currentDir) / absolutePath place
  if ← file.isDir then return some .directory
  else if ← file.pathExists then return some (fileWith (← IO.FS.readBinFile file))
  else return none

/-- Load what is on the way to a place, at it and below it. -/
def loadPlace (tree : FileTree) (place : Place) : IO FileTree := do
  let mut places := (List.range place.length).map fun n => place.take (n + 1)
  let top := (← IO.currentDir) / absolutePath place
  if ← top.isDir then
    places := places ++ (← top.walkDir).toList.map fun file => Path.placeFrom [] file.toString
  let mut loaded := tree
  for place in places do
    if let some entry ← systemEntry? place then loaded := loaded.put place entry
  return loaded

/-- Load what is at several paths. -/
def loadPaths (tree : FileTree) (paths : List String) : IO FileTree :=
  paths.foldlM (fun tree path => loadPlace tree (Path.placeFrom tree.workingDirectory path)) tree

/-- Load all that a session with the given arguments may read. -/
def loadTree (args : List String) : IO FileTree := do
  let working := Path.placeFrom [] (← IO.currentDir).toString
  let tree := FileTree.withDirectory working
  match readArguments args with
  | .error _ => return tree
  | .ok invocation =>
    let tree ← loadPaths tree (namedFiles invocation)
    match ((loadSettings invocation).run.run ⟨tree, "", ""⟩).1 with
    | .ok settings => loadPaths tree (namedDirectories settings)
    | .error _ => return tree

/-- Write what differs between two trees, directories before what they hold. -/
def saveChanges (before after : FileTree) : IO Unit := do
  for (place, entry) in after.entries.reverse do
    if before.entry? place ≠ some entry then
      match entry with
      | .directory => IO.FS.createDirAll (absolutePath place)
      | .text content => IO.FS.writeFile (absolutePath place) content
      | .binary content => IO.FS.writeBinFile (absolutePath place) ⟨content.toArray⟩

/-- The clock at this moment; a session on a tree takes no time. -/
def presentClock : IO Clock := do
  let now ← Std.Time.Timestamp.now
  let seconds := now.toSecondsSinceUnixEpoch.val
  let nanos := now.val.nano.val
  let instant : Instant :=
    if nanos < 0 then ⟨seconds - 1, (nanos + Nat.pow 10 9).toNat⟩ else ⟨seconds, nanos.toNat⟩
  return ⟨instant, Binary64.ofInt 0, Binary64.ofInt 0⟩

end SqlPipeline.CommandLine

open SqlPipeline SqlPipeline.CommandLine

/-- Run a session with the arguments of the program. -/
def main (args : List String) : IO UInt32 := do
  match readArguments args with
  | .error .help =>
    (← IO.getStdout).putStr usage
    return 0
  | .error .rejected =>
    (← IO.getStderr).putStr usage
    return 2
  | .ok _ =>
    let tree ← loadTree args
    let ending := session args tree (← presentClock) RunPlan.inTurn
    saveChanges tree ending.tree
    (← IO.getStdout).putStr ending.out
    (← IO.getStderr).putStr ending.err
    return ending.code.toUInt32
