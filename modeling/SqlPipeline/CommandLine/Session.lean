import SqlPipeline.CommandLine.Arguments
import SqlPipeline.CommandLine.Report
import SqlPipeline.Model.Manifest
import SqlPipeline.Registry
import SqlPipeline.Run.Task

/-!
# A session of the program

A session reads settings, loads the project and does what the arguments ask for. It changes files
and prints; a failure ends it with a description of what it was about and of the causes.
-/

namespace SqlPipeline.CommandLine

/-- The files and what has been printed. -/
structure Console where
  tree : FileTree
  out : String
  err : String

/-- Why a session ends early. -/
inductive Failure where
  /-- What it was about, and the causes, the nearest one first. -/
  | described (about : String) (causes : List String)
  /-- The run has been reported, but some node did not succeed. -/
  | unsuccessful

/-- A step of a session. -/
abbrev Session := ExceptT Failure (StateM Console)

/-- How a session ends. -/
structure Ending where
  code : Nat
  out : String
  err : String
  tree : FileTree

/-- The lines of a cause, indented; several causes are numbered. -/
def causeText (numbered : Bool) (position : Nat) (cause : String) : String :=
  let first := if numbered then
      let digits := toString position
      String.ofList (List.replicate (5 - digits.length) ' ') ++ digits ++ ": "
    else "    "
  let further := if numbered then "\n       " else "\n    "
  "\n" ++ first ++ further.intercalate ((Text.splitOnChar '\n' cause.toList).map String.ofList)

/-- The text of a failure. -/
def failureText (about : String) (causes : List String) : String :=
  let causeLines := String.join (causes.zipIdx.map fun (cause, position) =>
    causeText (1 < causes.length) position cause)
  "Error: " ++ about ++ (if causes.isEmpty then "" else "\n\nCaused by:" ++ causeLines) ++ "\n"

/-- Print a line. -/
def printLine (line : String) : Session Unit :=
  modify fun console => { console with out := console.out ++ line ++ "\n" }

/-- Print a line beside the output. -/
def noteLine (line : String) : Session Unit :=
  modify fun console => { console with err := console.err ++ line ++ "\n" }

/-- A result whose error has a description and causes. -/
def orFail {ε α : Type} (describe : ε → String × List String) : Except ε α → Session α
  | .ok value => pure value
  | .error error =>
    let (about, causes) := describe error
    throw (.described about causes)

/-- Take over changed files, or fail. -/
def updateTree {ε : Type} (describe : ε → String × List String)
    (result : Except ε FileTree) : Session Unit := do
  let tree ← orFail describe result
  modify fun console => { console with tree }

/-- The settings that the arguments ask for. -/
def loadSettings (invocation : Invocation) : Session Settings := do
  let tree := (← get).tree
  let settings ← match invocation.config with
    | some path => do
      let settings ← orFail (fun error => ("Failed to load config from " ++ path, [error.message]))
        (Settings.load tree path)
      match invocation.projectDir with
      | some root => pure { settings with root }
      | none => pure settings
    | none => do
      let root := invocation.projectDir.getD "."
      let path := Path.join root Settings.fileName
      if invocation.verbose && !tree.pathExists path then
        noteLine "No config file found, using defaults"
      orFail (fun error => ("Failed to load " ++ path, [error.message]))
        (Settings.discover tree root)
  if invocation.verbose then noteLine ("Project: " ++ settings.name ++ " (" ++ settings.root ++ ")")
  pure settings

/-- The project of settings. -/
def loadProject (settings : Settings) : Session Project := do
  orFail (fun error => ("Failed to load project at " ++ settings.root, [error.message]))
    (Project.load settings (← get).tree)

/-- The group of writers of results. -/
def writers : PluginGroup Unit := ⟨Registry.writersName, ()⟩

/-- The plugins of the program. -/
def plugins : Registry (fun _ : Unit => ResultWriter) := .ofWriters writers id

/-- Where a writer writes if nothing else is asked for. -/
def defaultOutput (targetDir writer : String) : String :=
  Path.join targetDir (if writer = Registry.defaultName then "run_results.json"
    else writer ++ ".json")

/-- The arguments of a run from options and settings. -/
def argsOf (settings : Settings) (command : Command) (options : RunOptions) : RunArgs where
  command := command.text
  select := options.selection.select
  exclude := options.selection.exclude
  threads := options.threads.getD 0
  failFast := options.failFast || settings.run.failFast
  target := settings.target.name
  notify := if options.notify.isEmpty then settings.run.notify else options.notify

/-- Run a command: write the manifest and the compiled models, execute, and write the results. -/
def runCommand (settings : Settings) (command : Command) (options : RunOptions) (verbose : Bool)
    (clock : Clock) (order : Nat → Nat) : Session (Execution × String) := do
  let targetDir := settings.targetDir
  let writerName := options.writer.getD settings.run.resultWriter
  let available := ", ".intercalate (plugins.names Registry.writersName)
  let writer ← orFail (fun error => ("Available writers: " ++ available, [error.message]))
    (plugins.get writers writerName)
  let project ← loadProject settings
  let manifestPath := Path.join targetDir "manifest.json"
  updateTree (fun error => ("Failed to write manifest", [error.message]))
    ((Manifest.ofProject project clock.now.offsetText).save (← get).tree manifestPath)
  if verbose then noteLine ("Wrote manifest: " ++ manifestPath)
  let task ← orFail (fun error => (error.message, []))
    (RunTask.ofArgs settings (argsOf settings command options))
  let selected ← orFail (fun error => (error.message, []))
    (project.select task.args.select task.args.exclude)
  let compiled := project.compile
  let (written, tree) := compiled.write (Path.join targetDir "compiled") (← get).tree
  modify fun console => { console with tree }
  let _ ← orFail (fun error => ("Failed to write compiled models", match error with
    | CompileError.io _ cause => [error.message, cause.message]
    | _ => [error.message])) written
  let outcome ← orFail (fun error => (error.message, []))
    (task.runCompiled project clock compiled selected (.files (Path.join targetDir "run"))
      (← get).tree order)
  modify fun console => { console with tree := outcome.state }
  let output := options.output.getD (defaultOutput targetDir writerName)
  updateTree (fun error => ("Result writer '" ++ writerName ++ "' failed",
    [error.message, error.error.message])) (writer.write outcome.execution (← get).tree output)
  pure (outcome.execution, output)

/-- List the selected models in the order of their dependencies. -/
def listModels (settings : Settings) (selection : Selection) : Session Unit := do
  let project ← loadProject settings
  let selected ← orFail (fun error => (error.message, []))
    (project.select selection.select selection.exclude)
  match project.graph.topologicalSort? with
  | none => throw (.described "Project graph contains a cycle" [])
  | some order =>
    for id in order.filter selected.contains do
      match project.get? id with
      | none => pure ()
      | some model =>
        let materialization := Materialization.ofText model.materialized
        printLine (id ++ " [" ++ materialization.text ++ "] " ++ model.path.shown)

/-- List the plugins of each group. -/
def listPlugins : Session Unit := do
  for group in plugins.groupNames do
    printLine group
    for name in plugins.names group do
      printLine ("  " ++ name)

/-- Do what the arguments ask for. -/
def act (invocation : Invocation) (clock : Clock) (order : Nat → Nat) : Session Unit := do
  let settings ← loadSettings invocation
  match invocation.action with
  | .run command options => do
    let (execution, output) ← runCommand settings command options invocation.verbose clock
      order
    for line in reportLines execution output do
      printLine line
    if !execution.succeeded then throw .unsuccessful
  | .list selection => listModels settings selection
  | .plugins => listPlugins

/-- A session with the given arguments. -/
def session (args : List String) (tree : FileTree) (clock : Clock) (order : Nat → Nat) : Ending :=
  match readArguments args with
  | .error .rejected => ⟨2, "", "", tree⟩
  | .error .help => ⟨0, "", "", tree⟩
  | .ok invocation =>
    let (result, console) := (act invocation clock order).run.run ⟨tree, "", ""⟩
    match result with
    | .ok () => ⟨0, console.out, console.err, console.tree⟩
    | .error .unsuccessful => ⟨1, console.out, console.err, console.tree⟩
    | .error (.described about causes) =>
      ⟨1, console.out, console.err ++ failureText about causes, console.tree⟩

end SqlPipeline.CommandLine
