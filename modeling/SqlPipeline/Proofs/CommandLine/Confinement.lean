import SqlPipeline.Proofs.CommandLine.Effect

/-!
# Where a run command writes

A run command creates and changes files in the target directory and at the path of the results only,
as long as the path of no model leads out of the directory that its select is written below and the
target directory that holds that one.  A model path that starts in a directory beside the project
leads further, and then a run can replace the file of a model.
-/

namespace SqlPipeline.CommandLine

variable {settings : Settings} {project : Project} {tree : FileTree} {place : Place}

theorem WritesTo.in_target {output : String}
    (stays : ∀ model ∈ project.models.values, model.StaysWithin 1)
    (writes : WritesTo settings project tree output place) :
    tree.placeOf settings.targetDir <+: place ∨ place = tree.placeOf output := by
  cases writes with
  | manifest =>
    rw [placeOf_join_name tree isName_manifest]
    exact .inl (List.prefix_append _ _)
  | @artifact directory model kind member =>
    have inside := (stays model member).rdrop_prefix_placeOf_join tree
      (Path.join settings.targetDir directory)
    rw [placeOf_join_name tree kind.isName, List.rdrop_concat_succ, List.rdrop_zero] at inside
    exact .inl inside
  | results => exact .inr rfl

/-- If the paths of all models stay in the target directory, a run command changes and creates files
only there and at the path of the results, and it makes directories only where nothing is, whatever
the order in which nodes are executed and complete.  So the files of the models keep their content,
unless they lie there. -/
theorem runCommand_confined (settings : Settings) (command : Command) (options : RunOptions)
    (verbose : Bool) (clock : Clock) (order : Nat → Nat) (console : Console)
    (stays : ∀ project, Project.load settings console.tree = .ok project →
      ∀ model ∈ project.models.values, model.StaysWithin 1) :
    let before := console.tree
    let after := ((runCommand settings command options verbose clock order).run.run console).2.tree
    let target := before.placeOf settings.targetDir
    let output := before.placeOf (outputPath settings options)
    (∀ place, after.entry? place = before.entry? place ∨ target <+: place ∨ place = output ∨
      before.entry? place = none ∧ after.entry? place = some .directory) ∧
    ∀ file ∈ Project.modelFiles settings before, ¬target <+: before.placeOf file →
      before.placeOf file ≠ output → after.read file = before.read file := by
  intro before after target output
  rcases outcome_runCommand settings command options verbose clock order console with
    ⟨-, same⟩ | ⟨writer, project, -, loaded, written⟩
  · have unchanged : after = before := same
    rw [unchanged]
    exact ⟨fun _ => .inl rfl, fun _ _ _ _ => rfl⟩
  have confined : before.Written (fun place => target <+: place ∨ place = output) after :=
    written.mono fun place => WritesTo.in_target (stays project loaded)
  constructor
  · intro place
    rcases confined.entry? place with kept | made | ⟨inside | here, -⟩
    · exact .inl kept
    · exact .inr (.inr (.inr made))
    · exact .inr (.inl inside)
    · exact .inr (.inr (.inl here))
  · intro file member outside apart
    obtain ⟨sql, content⟩ := Project.exists_read_of_load loaded member
    rw [content]
    refine confined.read content ?_
    rintro (inside | here)
    · exact outside inside
    · exact apart here

/-- A run without any choice made. -/
def plainOptions : RunOptions := ⟨⟨[], []⟩, none, false, none, none, []⟩

/-- A clock that stands still. -/
def stillClock : Clock := ⟨⟨0, 0⟩, .ofInt 0, .ofInt 0⟩

/-- The settings of a project that has its models in a directory beside its own. -/
def siblingSettings : Settings := { Settings.default "p" with modelPaths := ["../models"] }

def siblingTree : FileTree where
  entries := [
    (["p"], .directory),
    (["models"], .directory),
    (["models", "orders.sql"], .text "select * from \x7b\x7b ref('users') \x7d\x7d"),
    (["models", "users.sql"], .text "select 1")]
  workingDirectory := []

/-- The artifacts of models beside the project still lie in its target directory. -/
theorem runCommand_confined_sibling :
    (∀ project, Project.load siblingSettings siblingTree = .ok project →
      ∀ model ∈ project.models.values, model.StaysWithin 1) ∧
    let after :=
      ((runCommand siblingSettings .run plainOptions false stillClock RunPlan.inTurn).run.run
        ⟨siblingTree, "", ""⟩).2.tree
    after.read "p/target/models/users.sql" =
        .ok "create view \"public\".\"users\" as (\nselect 1\n)" ∧
      after.read "p/../models/users.sql" = siblingTree.read "p/../models/users.sql" := by
  have stays : ∀ project, Project.load siblingSettings siblingTree = .ok project →
      ∀ model ∈ project.models.values, model.StaysWithin 1 :=
    fun _ => Project.staysWithin_of_check (by decide +kernel)
  refine ⟨stays, by decide +kernel, ?_⟩
  exact (runCommand_confined siblingSettings .run plainOptions false stillClock RunPlan.inTurn
    ⟨siblingTree, "", ""⟩ stays).2 "p/../models/users.sql" (by decide +kernel) (by decide +kernel)
    (by decide +kernel)

/-- A project that has its models and its target directory beside the directory above it. -/
def besideSettings : Settings :=
  { Settings.default "a/b" with modelPaths := ["../../m"], targetPath := "../../t" }

def besideTree : FileTree where
  entries := [
    (["a"], .directory),
    (["a", "b"], .directory),
    (["m"], .directory),
    (["m", "x.sql"], .text "select 1")]
  workingDirectory := []

/-- A statement replaces the file of its model, which lies neither in the target directory nor at
the path of the results. -/
theorem runCommand_replaces_model :
    let before := besideTree
    let after :=
      ((runCommand besideSettings .run plainOptions false stillClock RunPlan.inTurn).run.run
        ⟨before, "", ""⟩).2.tree
    let file := "a/b/../../m/x.sql"
    file ∈ Project.modelFiles besideSettings before ∧
      ¬before.placeOf besideSettings.targetDir <+: before.placeOf file ∧
      before.placeOf file ≠ before.placeOf (outputPath besideSettings plainOptions) ∧
      before.read file = .ok "select 1" ∧
      after.read file = .ok "create view \"public\".\"x\" as (\nselect 1\n)" := by
  decide +kernel

end SqlPipeline.CommandLine
