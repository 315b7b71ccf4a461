import SqlPipeline.Proofs.Files.Listing
import SqlPipeline.Proofs.Model.Location

/-!
# How often a file is loaded

Loading finds a file once for each entry of the list of model directories that leads to it or to a
directory above it.  A project only loads if this is at most one entry for each file, and if two
files of one name are reported, these are the same file only if it lies below two entries.
-/

namespace SqlPipeline

/-! ## Names of files below a directory -/

namespace Path

variable {base path rest name : String} {front : List String}

theorem dropComponents?_suffix {components : List Component} {names left : List String}
    (found : dropComponents? components names = some left) : left <:+ names := by
  fun_induction dropComponents? components names with
  | case1 names =>
    cases found
    exact List.dropWhile_suffix _
  | case2 => cases found
  | case3 first others part names trivial ih => exact (ih found).trans (List.suffix_cons part names)
  | case4 others part names trivial ih => exact (ih found).trans (List.suffix_cons part names)
  | case5 => cases found

/-- What is left of a path below a base is the path itself or its last parts. -/
theorem eq_or_exists_suffix (found : below? base path = some rest) :
    rest = path ∨ ∃ tail, tail <:+ parts path ∧ rest = "/".intercalate tail := by
  have last {components : List Component} {names : List String}
      (found : (dropComponents? components names).map "/".intercalate = some rest) :
      ∃ tail, tail <:+ names ∧ rest = "/".intercalate tail := by
    obtain ⟨tail, left, rfl⟩ := Option.map_eq_some_iff.mp found
    exact ⟨tail, dropComponents?_suffix left, rfl⟩
  rw [below?] at found
  split at found
  · exact .inl (Option.some.inj found).symm
  · split at found
    · exact .inr (last found)
    · cases found
  · split at found
    next _ names _ split =>
      obtain ⟨tail, ends, rfl⟩ := last found
      exact .inr ⟨tail, split ▸ ends.trans (List.suffix_cons "." names), rfl⟩
    · cases found
  · split at found
    · cases found
    · exact .inr (last found)
    · cases found

/-- The file name of a path is that of what is left of it below a base, if anything is left. -/
theorem fileName?_of_below? (ends : parts path = front ++ [name])
    (meaningful : isTrivial name = false) (inside : name ≠ "..")
    (found : below? base path = some rest) (some : fileName? rest ≠ none) :
    fileName? rest = fileName? path := by
  rw [fileName?_of_parts ends meaningful inside]
  rcases eq_or_exists_suffix found with rfl | ⟨tail, suffix, rfl⟩
  · exact fileName?_of_parts ends meaningful inside
  · rw [ends] at suffix
    have single : ∀ part ∈ tail, '/' ∉ part.toList := fun part member =>
      not_mem_of_mem_parts (ends ▸ suffix.subset member)
    rcases List.suffix_concat_iff.mp suffix with rfl | ⟨start, rfl, -⟩
    · exact absurd rfl some
    · have own : parts ("/".intercalate (start ++ [name])) = start ++ [name] := by
        cases start with
        | nil => exact parts_intercalate single
        | cons head others => exact parts_intercalate single
      exact fileName?_of_parts own meaningful inside

end Path

namespace Project

variable {settings : Settings} {tree : FileTree} {project : Project} {place : Place}
  {file name first second : String} {files : List (FilePath × String)}
  {seen : List (String × FilePath)}

/-! ## Occurrences of files -/

/-- The entries of the list of model directories that lead to a place or to a directory above it. -/
def directoriesAbove (settings : Settings) (tree : FileTree) (place : Place) : List String :=
  settings.modelPaths.filter fun path => tree.leadsAbove (Path.join settings.root path) place

/-- A model file is found as often as a model directory leads to it. -/
theorem count_modelFiles (faithful : tree.IsFaithful) (holds : tree.HoldsFile "sql" place) :
    ((modelFiles settings tree).map tree.placeOf).count place =
      (directoriesAbove settings tree place).length := by
  rw [modelFiles_eq, ((sorted_perm _ _).map _).count_eq, directoriesAbove]
  induction settings.modelPaths with
  | nil => rfl
  | cons path paths ih =>
    rw [List.flatMap_cons, List.map_append, List.count_append, ih, faithful.count_filesWith holds,
      List.filter_cons]
    split
    · rw [List.length_cons, Nat.add_comm]
    · rw [Nat.zero_add]

/-! ## Files of one name -/

/-- The file that is reported second comes after another file of its name, which is reported
first. -/
theorem exists_of_nameSources_eq_duplicate
    (failed : nameSources seen files = .error (.duplicateModel name first second)) :
    ∃ front later sql back, files = front ++ (later, sql) :: back ∧
      second = later.shown ∧ later.fileStem? = some name ∧
      ((∃ earlier, seen.lookup name = some earlier ∧ first = earlier.shown) ∨
        ∃ earlier sql, (earlier, sql) ∈ front ∧ first = earlier.shown ∧
          earlier.fileStem? = some name) := by
  induction files generalizing seen with
  | nil => cases failed
  | cons file files ih =>
    obtain ⟨path, sql⟩ := file
    rw [nameSources] at failed
    split at failed
    · cases failed
    next own named =>
      split at failed
      next earlier held =>
        cases failed
        exact ⟨[], path, sql, files, rfl, rfl, named, .inl ⟨earlier, held, rfl⟩⟩
      next fresh =>
        rcases bind_eq_error_iff.mp failed with later | ⟨_, -, done⟩
        · obtain ⟨front, last, text, back, rfl, shown, same, before⟩ := ih later
          refine ⟨(path, sql) :: front, last, text, back, rfl, shown, same, ?_⟩
          rcases before with ⟨earlier, held, first⟩ | ⟨earlier, text, member, stem⟩
          · rw [List.lookup_cons] at held
            split at held
            next equal =>
              cases held
              exact .inr ⟨path, sql, List.mem_cons_self, first, by rw [named, beq_iff_eq.mp equal]⟩
            next => exact .inl ⟨earlier, held, first⟩
          · exact .inr ⟨earlier, text, List.mem_cons_of_mem _ member, stem⟩
        · cases done

/-- Only files of one name are reported as such. -/
theorem nameSources_of_ofSources_eq_duplicate
    (failed : ofSources settings files = .error (.duplicateModel name first second)) :
    nameSources [] files = .error (.duplicateModel name first second) := by
  rcases bind_eq_error_iff.mp failed with naming | ⟨sources, -, failed⟩
  · exact naming
  rcases bind_eq_error_iff.mp failed with reading | ⟨models, -, failed⟩
  · obtain ⟨source, -, unread⟩ := exists_of_mapM_eq_error reading
    rcases bind_eq_error_iff.mp unread with missing | ⟨_, -, done⟩
    · obtain ⟨reference, -, unknown⟩ := exists_of_mapM_eq_error missing
      rw [referencedId] at unknown
      split at unknown <;> cases unknown
    · cases done
  · dsimp only at failed
    split at failed <;> cases failed

/-- The path that stands for a model file in the project. -/
def shownPath (settings : Settings) (file : String) : String :=
  (Path.below? settings.root file).getD file

/-- Two model files, one after the other, give a model the same name. -/
structure NamedTwice (settings : Settings) (tree : FileTree) (name earlier later : String) :
    Prop where
  inOrder : [earlier, later].Sublist (modelFiles settings tree)
  first : Path.fileStem? (shownPath settings earlier) = some name
  second : Path.fileStem? (shownPath settings later) = some name

/-- Loading reports two of the model files that it finds. -/
theorem exists_namedTwice
    (failed : load settings tree = .error (.duplicateModel name first second)) :
    ∃ earlier later, NamedTwice settings tree name earlier later ∧
      first = shownPath settings earlier ∧ second = shownPath settings later := by
  rcases bind_eq_error_iff.mp failed with unread | ⟨sources, read, failed⟩
  · obtain ⟨file, -, fault⟩ := exists_of_mapM_eq_error unread
    rw [readSource] at fault
    split at fault <;> cases fault
  obtain ⟨front, second, sql, back, rfl, rfl, secondStem, before⟩ :=
    exists_of_nameSources_eq_duplicate (nameSources_of_ofSources_eq_duplicate failed)
  obtain ⟨first, text, member, rfl, firstStem⟩ :=
    before.resolve_left (by rintro ⟨earlier, held, -⟩; cases held)
  obtain ⟨start, middle, rfl⟩ := List.append_of_mem member
  have related := (mapM_eq_ok_iff_forall₂.mp read).flip
  obtain ⟨initial, later, last, same, initials, here, -⟩ := exists_split_of_forall₂ related
  obtain ⟨outset, earlier, further, rfl, -, there, -⟩ := exists_split_of_forall₂ initials
  obtain ⟨_, -, shown⟩ := readSource_eq_ok_iff.mp here
  obtain ⟨_, -, shown'⟩ := readSource_eq_ok_iff.mp there
  obtain rfl : second = shownPath settings later := (Prod.mk.inj shown).1
  obtain rfl : first = shownPath settings earlier := (Prod.mk.inj shown').1
  refine ⟨earlier, later, ⟨?_, firstStem, secondStem⟩, rfl, rfl⟩
  rw [same]
  exact List.Sublist.append (List.singleton_sublist.mpr (by simp))
    (List.singleton_sublist.mpr List.mem_cons_self)

/-! ## Files that are loaded -/

/-- What is found are files with the extension of models. -/
theorem holdsFile_of_mem_modelFiles (faithful : tree.IsFaithful)
    (member : file ∈ modelFiles settings tree) :
    tree.Reaches file ∧ tree.HoldsFile "sql" (tree.placeOf file) := by
  obtain ⟨path, -, found⟩ := mem_modelFiles.mp member
  exact faithful.find?_of_mem_filesWith found

/-- The name of a model is that of its file. -/
theorem fileName?_shownPath (faithful : tree.IsFaithful) (member : file ∈ modelFiles settings tree)
    (named : Path.fileName? (shownPath settings file) ≠ none) :
    Path.fileName? (shownPath settings file) = (tree.placeOf file).getLast? := by
  obtain ⟨reaches, holds⟩ := holdsFile_of_mem_modelFiles faithful member
  obtain ⟨front, name, ends, meaningful, inside⟩ :=
    faithful.exists_last_part reaches holds.not_directory
  rw [← faithful.fileName?_of_file reaches holds.not_directory]
  rw [shownPath] at named ⊢
  cases below : Path.below? settings.root file with
  | none => rfl
  | some rest =>
    rw [below] at named
    exact Path.fileName?_of_below? ends meaningful inside below named

/-- A project that loads has every file once. -/
theorem nodup_places_of_load (faithful : tree.IsFaithful)
    (loaded : load settings tree = .ok project) :
    ((modelFiles settings tree).map tree.placeOf).Nodup := by
  obtain ⟨sources, read, made⟩ := load_eq_ok_iff.mp loaded
  have consistent := exists_ofSources_iff.mp ⟨project, made⟩
  have shown : sources.map (·.1) =
      (modelFiles settings tree).map (FilePath.text ∘ shownPath settings) := by
    rw [eq_comm, ← List.forall₂_eq_eq_eq, List.forall₂_map_left_iff, List.forall₂_map_right_iff]
    refine read.imp fun file source run => ?_
    obtain ⟨_, -, rfl⟩ := readSource_eq_ok_iff.mp run
    rfl
  have stems : (modelFiles settings tree).map (Path.fileStem? ∘ shownPath settings) =
      ((modelFiles settings tree).map tree.placeOf).map fun place =>
        place.getLast?.map fun name => (Path.splitName name).1 := by
    rw [List.map_map]
    refine List.map_congr_left fun file member => ?_
    have listed : FilePath.text (shownPath settings file) ∈ sources.map (·.1) :=
      shown ▸ List.mem_map_of_mem (f := FilePath.text ∘ shownPath settings) member
    obtain ⟨source, there, same⟩ := List.mem_map.mp listed
    obtain ⟨name, stem⟩ := consistent.named source there
    have named : Path.fileName? (shownPath settings file) ≠ none := by
      intro none
      rw [same, FilePath.fileStem?, Path.fileStem?, none] at stem
      cases stem
    exact congrArg (Option.map _) (fileName?_shownPath faithful member named)
  have distinct : (sources.map (FilePath.fileStem? ∘ (·.1))).Nodup := consistent.distinct
  rw [← List.map_map, shown, List.map_map] at distinct
  exact (stems ▸ distinct).of_map _

/-- Two files that are reported together are the same one only if it lies below two entries of the
list of model directories. -/
theorem NamedTwice.two_directories {earlier later : String} (faithful : tree.IsFaithful)
    (twice : NamedTwice settings tree name earlier later)
    (same : tree.placeOf earlier = tree.placeOf later) :
    2 ≤ (directoriesAbove settings tree (tree.placeOf earlier)).length := by
  have member : earlier ∈ modelFiles settings tree := twice.inOrder.subset List.mem_cons_self
  rw [← count_modelFiles faithful (holdsFile_of_mem_modelFiles faithful member).2]
  have both := (twice.inOrder.map tree.placeOf).count_le (tree.placeOf earlier)
  rw [List.map_cons, List.map_cons, List.map_nil, ← same] at both
  simpa using both

/-- Loading finds only files with the extension of models, and each of them once for every entry of
the list of model directories that leads to it or above it.  In a project that loads this is once
for every file.  If two files of one name are reported, these are two of the files that are found,
and the same one only if two entries of the list lead to it or above it. -/
theorem load_repeats_files (settings : Settings) (faithful : tree.IsFaithful) :
    (∀ file ∈ modelFiles settings tree,
      tree.Reaches file ∧ tree.HoldsFile "sql" (tree.placeOf file)) ∧
    (∀ place, tree.HoldsFile "sql" place →
      ((modelFiles settings tree).map tree.placeOf).count place =
        (directoriesAbove settings tree place).length) ∧
    (∀ project, load settings tree = .ok project →
      ((modelFiles settings tree).map tree.placeOf).Nodup) ∧
    ∀ name first second, load settings tree = .error (.duplicateModel name first second) →
      ∃ earlier later, NamedTwice settings tree name earlier later ∧
        first = shownPath settings earlier ∧ second = shownPath settings later ∧
        (tree.placeOf earlier = tree.placeOf later →
          2 ≤ (directoriesAbove settings tree (tree.placeOf earlier)).length) := by
  refine ⟨fun file => holdsFile_of_mem_modelFiles faithful, fun place => count_modelFiles faithful,
    fun project => nodup_places_of_load faithful, fun name first second failed => ?_⟩
  obtain ⟨earlier, later, twice, shown, shown'⟩ := exists_namedTwice failed
  exact ⟨earlier, later, twice, shown, shown', twice.two_directories faithful⟩

/-- A project at the root with given model directories. -/
def listing (modelPaths : List String) : Settings :=
  { Settings.default "." with modelPaths }

/-- A model directory with a model in it and one in a directory below. -/
def layeredTree : FileTree where
  entries := [
    (["models"], .directory),
    (["models", "b.sql"], .text "select 1"),
    (["models", "core"], .directory),
    (["models", "core", "a.sql"], .text "select 2")]
  workingDirectory := []

theorem isFaithful_layeredTree : layeredTree.IsFaithful :=
  ⟨⟨by decide, by decide, rfl⟩, by decide⟩

/-- Both files are found once in the model directory, but the one below two model directories is
found twice, and is reported as defined twice. -/
theorem load_repeats_files_layered :
    let place := ["models", "core", "a.sql"]
    let settings := listing ["models", "models/core"]
    layeredTree.IsFaithful ∧
      (∃ project, load (listing ["models"]) layeredTree = .ok project ∧
        ((modelFiles (listing ["models"]) layeredTree).map layeredTree.placeOf).Nodup) ∧
      layeredTree.HoldsFile "sql" place ∧
      ((modelFiles settings layeredTree).map layeredTree.placeOf).count place = 2 ∧
      ∃ earlier later, NamedTwice settings layeredTree "a" earlier later ∧
        shownPath settings earlier = "models/core/a.sql" ∧
        shownPath settings later = "models/core/a.sql" := by
  intro place settings
  obtain ⟨project, loaded⟩ : ∃ project, load (listing ["models"]) layeredTree = .ok project :=
    exists_of_isOk (by decide +kernel)
  have once := (load_repeats_files (listing ["models"]) isFaithful_layeredTree).2.2.1 project loaded
  have holds : layeredTree.HoldsFile "sql" place := ⟨.text "select 2", rfl, by decide, by decide⟩
  obtain ⟨-, counts, -, reported⟩ := load_repeats_files settings isFaithful_layeredTree
  have above : (directoriesAbove settings layeredTree place).length = 2 := by decide +kernel
  have failed : load settings layeredTree =
      .error (.duplicateModel "a" "models/core/a.sql" "models/core/a.sql") := by
    have fails : (load settings layeredTree).map (·.models.keys) =
      .error (.duplicateModel "a" "models/core/a.sql" "models/core/a.sql") := by decide +kernel
    exact eq_error_of_map fails
  obtain ⟨earlier, later, twice, first, second, -⟩ := reported _ _ _ failed
  exact ⟨isFaithful_layeredTree, ⟨project, loaded, once⟩, holds, (counts place holds).trans above,
    earlier, later, twice, first.symm, second.symm⟩

/-- If a directory is listed twice, the first file in it is reported against itself. -/
theorem load_reports_file_against_itself :
    let settings := listing ["models", "models"]
    layeredTree.IsFaithful ∧
      modelFiles settings layeredTree =
        ["./models/b.sql", "./models/b.sql", "./models/core/a.sql", "./models/core/a.sql"] ∧
      load settings layeredTree =
        .error (.duplicateModel "b" "models/b.sql" "models/b.sql") := by
  intro settings
  have fails : (load settings layeredTree).map (·.models.keys) =
      .error (.duplicateModel "b" "models/b.sql" "models/b.sql") := by decide +kernel
  exact ⟨isFaithful_layeredTree, by decide +kernel, eq_error_of_map fails⟩

end Project
end SqlPipeline
