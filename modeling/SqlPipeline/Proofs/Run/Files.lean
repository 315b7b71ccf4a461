import SqlPipeline.Model.Manifest
import SqlPipeline.Proofs.Files.Writing
import SqlPipeline.Proofs.Run.Accounting
import SqlPipeline.Results.Writer

/-!
# What a run writes

The manifest, the results, the selects and the statements of a run are each written to the place of
their path, after the directories that they need have been made.  So a run writes where its compiled
models lead, whatever the order in which their executions complete.
-/

namespace SqlPipeline

variable {region : Place → Prop} {before middle after : FileTree} {path dir sql : String}

open FileTree

namespace FileTree.Written

/-! ## Single files -/

theorem writeSql (written : Written region before middle)
    (run : SqlPipeline.writeSql middle path sql = .ok after)
    (within : region (before.placeOf path)) : Written region before after := by
  rw [SqlPipeline.writeSql] at run
  split at run
  · exact written.write run within
  · obtain ⟨made, parents, run⟩ := bind_eq_ok_iff.mp run
    exact written.writeInDirectory parents run within

theorem writeSqlBelow {file : FilePath} (written : Written region before middle)
    (run : SqlPipeline.writeSqlBelow middle dir file sql = .ok after)
    (within : region (before.placeOf (Path.join dir file.shown))) :
    Written region before after := by
  cases file with
  | text path => exact written.writeSql run within
  | bytes path foreign => cases run

theorem save {manifest : Manifest} (written : Written region before middle)
    (run : manifest.save middle path = .ok after) (within : region (before.placeOf path)) :
    Written region before after := by
  rw [Manifest.save] at run
  split at run
  · exact written.write (mapError_eq_ok_iff.mp run) within
  · obtain ⟨made, parents, run⟩ := bind_eq_ok_iff.mp run
    exact written.writeInDirectory (mapError_eq_ok_iff.mp parents) (mapError_eq_ok_iff.mp run)
      within

theorem results {writer : ResultWriter} {execution : Execution}
    (written : Written region before middle)
    (run : writer.write execution middle path = .ok after)
    (within : region (before.placeOf path)) : Written region before after := by
  rw [ResultWriter.write] at run
  split at run
  · exact written.write (mapError_eq_ok_iff.mp run) within
  · obtain ⟨made, parents, run⟩ := bind_eq_ok_iff.mp run
    exact written.writeInDirectory (mapError_eq_ok_iff.mp parents) (mapError_eq_ok_iff.mp run)
      within

/-! ## Files of models -/

theorem writeModels {models : List CompiledModel}
    (within : ∀ model ∈ models, region (before.placeOf (Path.join dir model.path.shown)))
    (count : Nat) (written : Written region before middle) :
    Written region before (Compilation.writeModels dir models count middle).2 := by
  induction models generalizing count middle with
  | nil =>
    rw [Compilation.writeModels]
    exact written
  | cons model models ih =>
    rw [Compilation.writeModels]
    split
    next run =>
      exact ih (fun other member => within other (List.mem_cons_of_mem _ member)) _
        (written.writeSqlBelow run (within model List.mem_cons_self))
    next => exact written

theorem execute {model : CompiledModel}
    (within : region (before.placeOf (Path.join dir model.path.shown)))
    (written : Written region before middle) :
    Written region before (Executor.files dir model middle).2 := by
  rw [Executor.files]
  split
  · exact written
  · split
    next run => exact written.writeSqlBelow run within
    next => exact written

end FileTree.Written

/-- The paths of compiled models lead, below a directory, into a region. -/
def Compilation.LeadsInto (compiled : Compilation) (tree : FileTree) (dir : String)
    (region : Place → Prop) : Prop :=
  ∀ id model, compiled.get? id = some (.ok model) →
    region (tree.placeOf (Path.join dir model.path.shown))

namespace FileTree.Written

variable {compiled : Compilation}

theorem writeCompiled (written : Written region before middle)
    (within : compiled.LeadsInto before dir region) :
    Written region before (compiled.write dir middle).2 := by
  refine writeModels (fun model member => ?_) 0 written
  obtain ⟨result, there, made⟩ := List.mem_filterMap.mp member
  obtain ⟨id, found⟩ := NameMap.mem_values.mp there
  cases result with
  | error error => cases made
  | ok built =>
    cases made
    exact within id model found

/-- A run writes where its compiled models lead. -/
theorem run {plan : RunPlan} {graph : Graph} {selected : NameSet} {order : Nat → Nat}
    {progress : Progress FileTree} (keyed : compiled.Keyed)
    (written : Written region before middle) (within : compiled.LeadsInto before dir region)
    (run : plan.run graph compiled selected (.files dir) middle order = .ok progress) :
    Written region before progress.state := by
  obtain ⟨last, reached, closed⟩ := bind_eq_ok_iff.mp run
  have state : last.close.state = last.state := by
    rw [Progress.close]
    split <;> rfl
  cases closed
  rw [state]
  refine RunPlan.after_induction keyed
    (motive := fun _ progress => Written region before progress.state) written ?_ reached
  intro _ earlier later accounted moves written
  cases moves with
  | rested => exact written
  | passed _ _ recorded =>
    rw [recorded.state]
    exact written
  | launched => exact written
  | performed found =>
    have carries := accounted.flights _ (List.mem_of_getElem? found)
    exact execute (within _ _ (RunPlan.prepare_execute carries.prepared).1) written
  | completed _ _ recorded =>
    rw [recorded.state]
    exact written

end FileTree.Written
end SqlPipeline
