import SqlPipeline.Proofs.CommandLine.Confinement

/-!
# Loading a project again after a run command

What a run command writes is not taken for a model, as long as no model directory overlaps the
directories of the selects and the statements, or those so many levels above them as the paths of
the models climb.  So the same project loads again, and a run command can be repeated.  If they
overlap, the files of a run are found as models.
-/

namespace SqlPipeline.CommandLine

variable {settings : Settings} {project : Project} {tree : FileTree} {place : Place}
  {options : RunOptions} {writer : ResultWriter} {depth : Nat}

/-- Neither place lies in the other one. -/
def Apart (first second : Place) : Prop := ¬first <+: second ∧ ¬second <+: first

instance (first second : Place) : Decidable (Apart first second) :=
  inferInstanceAs (Decidable (_ ∧ _))

/-- The results of a registered writer are written to a file in the target directory that is no
model. -/
theorem exists_outputPath_eq (available : plugins.get writers (writerName settings options) =
    .ok writer) (unset : options.output = none) :
    ∃ name, outputPath settings options = Path.join settings.targetDir name ∧
      Path.IsName name ∧ (Path.splitName name).2 ≠ some "sql" := by
  have registered : writerName settings options ∈ ["default", "email"] :=
    Registry.mem_names_of_get available
  rw [outputPath, unset, Option.getD_none, defaultOutput]
  rcases List.mem_cons.mp registered with same | other
  · rw [same]
    exact ⟨_, rfl, by decide, by decide +kernel⟩
  · rw [List.mem_singleton.mp other]
    exact ⟨_, rfl, by decide, by decide +kernel⟩

/-- What a run command writes is nowhere that a model could be. -/
theorem spares_writesTo (proper : tree.IsProper)
    (available : plugins.get writers (writerName settings options) = .ok writer)
    (unset : options.output = none)
    (apart : ∀ path ∈ settings.modelPaths, ∀ directory, IsArtifactDirectory directory →
      Apart (tree.placeOf (Path.join settings.root path))
        ((tree.placeOf (Path.join settings.targetDir directory)).rdrop depth))
    (stays : ∀ model ∈ project.models.values, model.StaysWithin depth) :
    Project.Spares settings tree
      (WritesTo settings project tree (outputPath settings options)) := by
  have named {name : String} (isName : Path.IsName name)
      (other : (Path.splitName name).2 ≠ some "sql") :
      Path.extensionAt? (tree.placeOf (Path.join settings.targetDir name)) ≠ some "sql" := by
    rw [placeOf_join_name tree isName, Path.extensionAt?, List.getLast?_concat]
    exact other
  constructor
  · intro place writes
    cases writes <;> exact proper.isName_placeOf _
  · intro path listed place writes below
    cases writes with
    | manifest => exact named isName_manifest (by decide +kernel)
    | @artifact directory model kind member =>
      have inside := (stays model member).rdrop_prefix_placeOf_join tree
        (Path.join settings.targetDir directory)
      have clear := apart path listed _ kind
      rcases List.prefix_or_prefix_of_prefix below inside with within | around
      · exact absurd within clear.1
      · exact absurd around clear.2
    | results =>
      obtain ⟨name, same, isName, other⟩ := exists_outputPath_eq available unset
      rw [same]
      exact named isName other

/-- A run command that writes its results to their own place leaves the project as it was: the same
files are found as models, and loading gives the same, which is a project if the command completes.
So it is in whatever order nodes are executed and complete.  This asks that no path of a model leads
out of more directories than a depth, and that no model directory overlaps what lies so many levels
above the directories of the selects and the statements. -/
theorem load_runCommand (settings : Settings) (command : Command) (options : RunOptions)
    (verbose : Bool) (clock : Clock) (order : Nat → Nat) (console : Console) (depth : Nat)
    (proper : console.tree.IsProper) (unset : options.output = none)
    (leaves : ∀ path ∈ settings.modelPaths,
      console.tree.leavesPresent (Path.join settings.root path) = true)
    (apart : ∀ path ∈ settings.modelPaths, ∀ directory, IsArtifactDirectory directory →
      Apart (console.tree.placeOf (Path.join settings.root path))
        ((console.tree.placeOf (Path.join settings.targetDir directory)).rdrop depth))
    (stays : ∀ project, Project.load settings console.tree = .ok project →
      ∀ model ∈ project.models.values, model.StaysWithin depth) :
    let ended := (runCommand settings command options verbose clock order).run.run console
    Project.modelFiles settings ended.2.tree = Project.modelFiles settings console.tree ∧
      Project.load settings ended.2.tree = Project.load settings console.tree ∧
      ∀ value, ended.1 = .ok value →
        ∃ project, Project.load settings ended.2.tree = .ok project := by
  intro ended
  rcases outcome_runCommand settings command options verbose clock order console with
    ⟨⟨failure, failed⟩, same⟩ | ⟨writer, project, available, loaded, written⟩
  · have unchanged : ended.2.tree = console.tree := same
    rw [unchanged]
    exact ⟨rfl, rfl, fun value completed => nomatch failed.symm.trans completed⟩
  · have spares := spares_writesTo proper available unset apart (stays project loaded)
    have reloaded := Project.load_of_written written proper spares leaves loaded
    exact ⟨Project.modelFiles_of_written written proper spares leaves, reloaded.trans loaded.symm,
      fun _ _ => ⟨project, reloaded⟩⟩

/-- A project at the root, with two models of which one reads the other. -/
def shopTree : FileTree where
  entries := [
    (["models"], .directory),
    (["models", "orders.sql"], .text "select * from \x7b\x7b ref('users') \x7d\x7d"),
    (["models", "users.sql"], .text "select 1")]
  workingDirectory := []

theorem load_runCommand_shop :
    let settings := Settings.default "."
    shopTree.IsProper ∧ plainOptions.output = none ∧
    (∀ path ∈ settings.modelPaths,
      shopTree.leavesPresent (Path.join settings.root path) = true) ∧
    (∀ path ∈ settings.modelPaths, ∀ directory, IsArtifactDirectory directory →
      Apart (shopTree.placeOf (Path.join settings.root path))
        ((shopTree.placeOf (Path.join settings.targetDir directory)).rdrop 0)) ∧
    (∀ project, Project.load settings shopTree = .ok project →
      ∀ model ∈ project.models.values, model.StaysWithin 0) ∧
    let ended := (runCommand settings .run plainOptions false stillClock RunPlan.inTurn).run.run
      ⟨shopTree, "", ""⟩
    (ended.1.isOk = true ∧ ended.2.tree.pathExists "target/run/models/orders.sql" = true) ∧
      Project.load settings ended.2.tree = Project.load settings shopTree := by
  intro settings
  have proper : shopTree.IsProper := ⟨by decide, by decide, rfl⟩
  have leaves : ∀ path ∈ settings.modelPaths,
      shopTree.leavesPresent (Path.join settings.root path) = true := by decide +kernel
  have apart : ∀ path ∈ settings.modelPaths, ∀ directory, IsArtifactDirectory directory →
      Apart (shopTree.placeOf (Path.join settings.root path))
        ((shopTree.placeOf (Path.join settings.targetDir directory)).rdrop 0) := by
    intro path listed directory kind
    rw [List.mem_singleton.mp listed]
    rcases kind with rfl | rfl <;> decide +kernel
  have stays : ∀ project, Project.load settings shopTree = .ok project →
      ∀ model ∈ project.models.values, model.StaysWithin 0 :=
    fun _ => Project.staysWithin_of_forward proper (by decide) 0
  refine ⟨proper, rfl, leaves, apart, stays, by decide +kernel, ?_⟩
  exact (load_runCommand settings .run plainOptions false stillClock RunPlan.inTurn
    ⟨shopTree, "", ""⟩ 0 proper rfl leaves apart stays).2.1

/-- The settings of a project with given model directories. -/
def settingsWith (modelPaths : List String) : Settings :=
  { Settings.default "." with modelPaths }

/-- A project at the root with one model. -/
def singleTree : FileTree where
  entries := [
    (["models"], .directory),
    (["models", "a.sql"], .text "select 1")]
  workingDirectory := []

/-- What a run command writes is found as a model if the target directory lies in a model directory,
or a model directory in that of the selects.  Making the target directory can also complete a path
that steps back out of it, so that a model directory appears. -/
theorem runCommand_adds_models :
    let ended (modelPaths : List String) :=
      (runCommand (settingsWith modelPaths) .run plainOptions false stillClock
        RunPlan.inTurn).run.run ⟨singleTree, "", ""⟩
    let ids (modelPaths : List String) (tree : FileTree) :=
      (Project.load (settingsWith modelPaths) tree).map (·.models.keys)
    let single := "model.modelflow_project.a"
    let double := ProjectError.duplicateModel "a" "models/a.sql" "target/compiled/models/a.sql"
    let around := ["models", "target/compiled/models"]
    let back := ["target/../models"]
    (ids ["."] singleTree = .ok [single] ∧ (ended ["."]).1.isOk = true ∧
      ids ["."] (ended ["."]).2.tree = .error double) ∧
    (ids around singleTree = .ok [single] ∧ (ended around).1.isOk = true ∧
      ids around (ended around).2.tree = .error double) ∧
    (ids back singleTree = .ok [] ∧ (ended back).1.isOk = true ∧
      ids back (ended back).2.tree = .ok [single]) := by
  decide +kernel

end SqlPipeline.CommandLine
