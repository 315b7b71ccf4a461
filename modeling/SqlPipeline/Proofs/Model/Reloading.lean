import SqlPipeline.Proofs.Files.Discovery
import SqlPipeline.Proofs.Model.Loading
import SqlPipeline.Proofs.Sorting

/-!
# Loading a project again

A project that loads before its tree is written to loads as the same project afterwards, if nothing
that is written could be taken for a model.
-/

namespace SqlPipeline.Project

variable {settings : Settings} {project : Project} {region : Place → Prop}
  {before after tree : FileTree} {file path : String}

theorem modelFiles_eq (settings : Settings) (tree : FileTree) :
    modelFiles settings tree = sorted Path.order (settings.modelPaths.flatMap fun path =>
      tree.filesWith "sql" (Path.join settings.root path)) := rfl

theorem mem_modelFiles : file ∈ modelFiles settings tree ↔
    ∃ path ∈ settings.modelPaths, file ∈ tree.filesWith "sql" (Path.join settings.root path) := by
  rw [modelFiles_eq, (sorted_perm _ _).mem_iff, List.mem_flatMap]

theorem readSource_eq_ok_iff {source : FilePath × String} :
    readSource settings tree file = .ok source ↔ ∃ sql, tree.read file = .ok sql ∧
      source = (.text ((Path.below? settings.root file).getD file), sql) := by
  rw [readSource]
  cases tree.read file with
  | ok sql => simp [eq_comm]
  | error error => simp

theorem load_eq_ok_iff : load settings tree = .ok project ↔
    ∃ sources, List.Forall₂ (fun file source => readSource settings tree file = .ok source)
      (modelFiles settings tree) sources ∧ ofSources settings sources = .ok project := by
  rw [load, bind_eq_ok_iff]
  simp only [mapM_eq_ok_iff_forall₂]

/-- Every model file of a project that loads can be read. -/
theorem exists_read_of_load (loaded : load settings tree = .ok project)
    (member : file ∈ modelFiles settings tree) : ∃ sql, tree.read file = .ok sql := by
  obtain ⟨sources, read, -⟩ := load_eq_ok_iff.mp loaded
  obtain ⟨front, back, split⟩ := List.append_of_mem member
  rw [split] at read
  obtain ⟨-, source, -, -, -, run, -⟩ := exists_split_of_forall₂ read
  obtain ⟨sql, content, -⟩ := readSource_eq_ok_iff.mp run
  exact ⟨sql, content⟩

/-- No place of a region could hold a model. -/
structure Spares (settings : Settings) (tree : FileTree) (region : Place → Prop) : Prop where
  isName : ∀ place, region place → ∀ name ∈ place, Path.IsName name
  foreign : ∀ path ∈ settings.modelPaths, ∀ place, region place →
    tree.placeOf (Path.join settings.root path) <+: place → Path.extensionAt? place ≠ some "sql"

/-- Writing that spares the models of a project changes nothing of what is found. -/
theorem modelFiles_of_written (written : before.Written region after) (proper : before.IsProper)
    (spares : Spares settings before region)
    (leaves : ∀ path ∈ settings.modelPaths,
      before.leavesPresent (Path.join settings.root path) = true) :
    modelFiles settings after = modelFiles settings before := by
  rw [modelFiles_eq, modelFiles_eq]
  congr 1
  refine List.flatMap_congr fun path member => ?_
  exact written.filesWith proper spares.isName (spares.foreign path member) (leaves path member)

/-- A project loads again after writing that spares its models. -/
theorem load_of_written (written : before.Written region after) (proper : before.IsProper)
    (spares : Spares settings before region)
    (leaves : ∀ path ∈ settings.modelPaths,
      before.leavesPresent (Path.join settings.root path) = true)
    (loaded : load settings before = .ok project) : load settings after = .ok project := by
  obtain ⟨sources, read, made⟩ := load_eq_ok_iff.mp loaded
  refine load_eq_ok_iff.mpr ⟨sources, ?_, made⟩
  rw [modelFiles_of_written written proper spares leaves]
  have members : ∀ file ∈ modelFiles settings before, file ∈ modelFiles settings before :=
    fun _ member => member
  refine ((List.forall₂_and_left _ _).mpr ⟨members, read⟩).imp ?_
  rintro file source ⟨member, run⟩
  obtain ⟨path, listed, found⟩ := mem_modelFiles.mp member
  obtain ⟨sql, content, rfl⟩ := readSource_eq_ok_iff.mp run
  obtain ⟨below, model⟩ := proper.of_mem_filesWith found
  have outside (within : region (before.placeOf file)) : False :=
    spares.foreign path listed _ within below model
  exact readSource_eq_ok_iff.mpr ⟨sql, written.read content outside, rfl⟩

end SqlPipeline.Project
