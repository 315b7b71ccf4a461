import SqlPipeline.CommandLine.Session
import SqlPipeline.Proofs.Model.Location
import SqlPipeline.Proofs.Run.Files

/-!
# What a run command changes

A run command stops before it changes any file, or the project loads; then it writes only to the
places of the manifest, of the artifacts of the models and of the results.
-/

namespace SqlPipeline.CommandLine

variable {α β ε : Type} {console : Console} {settings : Settings} {command : Command}
  {options : RunOptions} {verbose : Bool} {clock : Clock}

/-! ## Steps of a session -/

namespace Session

/-- What a session ends with, and the console that it leaves. -/
def outcome (session : Session α) (console : Console) : Except Failure α × Console :=
  session.run.run console

theorem outcome_pure (value : α) :
    outcome (pure value : Session α) console = (.ok value, console) := rfl

theorem outcome_get_bind (next : Console → Session β) :
    outcome (get >>= next) console = (next console).outcome console := rfl

theorem outcome_modify_bind (change : Console → Console) (next : PUnit → Session β) :
    outcome (modify change >>= next) console = (next ⟨⟩).outcome (change console) := rfl

theorem outcome_orFail_bind (describe : ε → String × List String) (result : Except ε α)
    (next : α → Session β) : outcome (orFail describe result >>= next) console =
      match result with
      | .ok value => (next value).outcome console
      | .error error => (.error (.described (describe error).1 (describe error).2), console) := by
  cases result <;> rfl

theorem outcome_updateTree_bind (describe : ε → String × List String)
    (result : Except ε FileTree) (next : Unit → Session β) :
    outcome (updateTree describe result >>= next) console =
      match result with
      | .ok tree => (next ()).outcome { console with tree }
      | .error error => (.error (.described (describe error).1 (describe error).2), console) := by
  cases result <;> rfl

theorem outcome_loadProject_bind (settings : Settings) (next : Project → Session β) :
    outcome (loadProject settings >>= next) console =
      outcome (orFail (fun error : ProjectError =>
        ("Failed to load project at " ++ settings.root, [error.message]))
        (Project.load settings console.tree) >>= next) console := rfl

/-- A note changes no file. -/
theorem outcome_note_bind (line : String) (next : Session β) :
    outcome (if verbose then noteLine line >>= fun _ => next else next) console =
      next.outcome { console with
        err := if verbose then console.err ++ line ++ "\n" else console.err } := by
  cases verbose <;> rfl

end Session

/-! ## Running a command -/

/-- The name of the writer of the results. -/
def writerName (settings : Settings) (options : RunOptions) : String :=
  options.writer.getD settings.run.resultWriter

/-- The path of the results. -/
def outputPath (settings : Settings) (options : RunOptions) : String :=
  options.output.getD (defaultOutput settings.targetDir (writerName settings options))

/-- The directories in the target directory that hold the selects and the statements. -/
def IsArtifactDirectory (directory : String) : Prop := directory = "compiled" ∨ directory = "run"

/-- The places that a run command writes to. -/
inductive WritesTo (settings : Settings) (project : Project) (tree : FileTree) (output : String) :
    Place → Prop
  | manifest : WritesTo settings project tree output
      (tree.placeOf (Path.join settings.targetDir "manifest.json"))
  /-- The select of a model, or its statement. -/
  | artifact {directory : String} {model : Model}
      (kind : IsArtifactDirectory directory)
      (member : model ∈ project.models.values) : WritesTo settings project tree output
      (tree.placeOf (Path.join (Path.join settings.targetDir directory) model.path.shown))
  | results : WritesTo settings project tree output (tree.placeOf output)

theorem placeOf_join_name (tree : FileTree) {name : String} (isName : Path.IsName name)
    (base : String) : tree.placeOf (Path.join base name) = tree.placeOf base ++ [name] :=
  Path.placeFrom_join_name tree.workingDirectory base isName

theorem isName_manifest : Path.IsName "manifest.json" := by decide

theorem IsArtifactDirectory.isName {directory : String} (kind : IsArtifactDirectory directory) :
    Path.IsName directory := by
  rcases kind with rfl | rfl <;> decide

theorem leadsInto_compile (settings : Settings) {project : Project} {directory : String}
    (tree : FileTree) (output : String) (kind : IsArtifactDirectory directory) :
    project.compile.LeadsInto tree (Path.join settings.targetDir directory)
      (WritesTo settings project tree output) := by
  intro id built found
  obtain ⟨model, earlier, held, run⟩ := Project.get?_compile found
  rw [(Project.compiledFrom_of_compileModel run.symm).path]
  exact .artifact kind (NameMap.mem_values.mpr ⟨id, held⟩)

theorem written_runCompiled {region : Place → Prop} {before middle : FileTree} {dir : String}
    {task : RunTask} {project : Project} {selected : NameSet} {order : Nat → Nat}
    {outcome : RunOutcome FileTree}
    (keyed : project.compile.Keyed) (written : before.Written region middle)
    (within : project.compile.LeadsInto before dir region)
    (run : task.runCompiled project clock project.compile selected (.files dir) middle order =
      .ok outcome) : before.Written region outcome.state := by
  obtain ⟨progress, finished, same⟩ := bind_eq_ok_iff.mp run
  cases same
  exact written.run keyed within (mapError_eq_ok_iff.mp finished)

/-- A run command fails before it changes any file, or the project loads and it writes only to the
places that belong to it. -/
theorem outcome_runCommand (settings : Settings) (command : Command) (options : RunOptions)
    (verbose : Bool) (clock : Clock) (order : Nat → Nat) (console : Console) :
    let ended := (runCommand settings command options verbose clock order).outcome console
    ((∃ failure, ended.1 = .error failure) ∧ ended.2.tree = console.tree) ∨
    ∃ writer project, plugins.get writers (writerName settings options) = .ok writer ∧
      Project.load settings console.tree = .ok project ∧
      console.tree.Written
        (WritesTo settings project console.tree (outputPath settings options))
        ended.2.tree := by
  unfold runCommand
  simp only [Session.outcome_orFail_bind, Session.outcome_loadProject_bind,
    Session.outcome_get_bind, Session.outcome_updateTree_bind, Session.outcome_note_bind,
    Session.outcome_modify_bind, Session.outcome_pure]
  rw [← writerName, ← outputPath]
  generalize outputPath settings options = output
  split
  next writer available =>
    split
    next project loaded =>
      obtain ⟨sources, -, made⟩ := Project.load_eq_ok_iff.mp loaded
      have keyed : project.compile.Keyed := (Compilation.Made.ofProject made project.settings).keyed
      refine .inr ⟨writer, project, available, loaded, ?_⟩
      let region := WritesTo settings project console.tree output
      split
      next saved run =>
        have manifest : console.tree.Written region saved := .save .refl run .manifest
        split
        · split
          · have selects := manifest.writeCompiled
              (leadsInto_compile settings console.tree output (.inl rfl))
            split
            · split
              next outcome run =>
                have statements : console.tree.Written region outcome.state :=
                  written_runCompiled keyed selects
                    (leadsInto_compile settings console.tree output (.inr rfl)) run
                split
                next run => exact statements.results run .results
                next => exact statements
              · exact selects
            · exact selects
          · exact manifest
        · exact manifest
      · exact .refl
    · exact .inl ⟨⟨_, rfl⟩, rfl⟩
  · exact .inl ⟨⟨_, rfl⟩, rfl⟩

end SqlPipeline.CommandLine
