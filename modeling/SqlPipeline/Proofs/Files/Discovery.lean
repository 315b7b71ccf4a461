import SqlPipeline.Proofs.Files.Writing

/-!
# What discovery finds after writing

Writing to places below a directory changes what discovery finds there only if they have the
extension that it looks for.  A directory that was not there before may appear, but nothing of that
kind is found in it.
-/

namespace SqlPipeline.FileTree

variable {region : Place → Prop} {before after : FileTree} {path extension : String}
  {place : Place} {steps : List String}

/-! ## Paths that appear -/

/-- A path that leads to something that was there before could be followed before, unless it steps
back out of nothing. -/
theorem Written.reaches_before (written : Written region before after) (proper : before.IsProper)
    (leaves : before.leavesPresent path = true)
    (present : before.entry? (before.placeOf path) ≠ none) (reaches : after.Reaches path) :
    before.Reaches path := by
  have step (steps : List String) (nonempty : ∀ step ∈ steps, step ≠ "") (place : Place)
      (leaves : before.leavesPresentFrom place steps = true)
      (present : before.entry? (steps.foldl Path.enter place) ≠ none)
      (passes : after.Passes place steps) :
      before.Passes place steps ∧ before.entry? place ≠ none := by
    induction steps generalizing place with
    | nil => exact ⟨trivial, present⟩
    | cons step steps ih =>
      rw [leavesPresentFrom, Bool.and_eq_true_iff] at leaves
      obtain ⟨further, there⟩ := ih (fun other member => nonempty other
        (List.mem_cons_of_mem _ member)) _ leaves.2 present passes.2
      have here := proper.present_of_enter (nonempty step List.mem_cons_self) leaves.1 there
      exact ⟨⟨written.directory_before passes.1 here, further⟩, here⟩
  have passes := reaches.2
  rw [startOf, written.workingDirectory] at passes
  exact ⟨reaches.1, (step _ (fun _ => ne_empty_of_mem_steps) _ leaves
    (by rwa [placeOf_eq]) passes).1⟩

/-! ## Files below a path -/

/-- The files with an extension at a path or below it. -/
def filesWith (tree : FileTree) (extension path : String) : List String :=
  (tree.filesBelow path).filter fun file => Path.extension? file = some extension

/-- What an entry adds to the files with an extension below a directory. -/
def fileWith? (extension path : String) (place : Place) (entry : Place × FileEntry) :
    Option String :=
  if place.isPrefixOf entry.1 ∧ place ≠ entry.1 ∧ entry.2 ≠ .directory then
    Option.guard (Path.extension? · = some extension)
      ((entry.1.drop place.length).foldl Path.join path)
  else none

theorem filesWith_directory {tree : FileTree}
    (found : tree.find? path = some (place, .directory)) (extension : String) :
    tree.filesWith extension path = tree.entries.filterMap (fileWith? extension path place) := by
  rw [filesWith, filesBelow, found]
  dsimp only
  rw [List.filter_filterMap]
  congr 1
  funext entry
  rw [fileWith?]
  split
  · rfl
  · rfl

theorem filesWith_file {tree : FileTree} {entry : FileEntry}
    (found : tree.find? path = some (place, entry)) (file : entry ≠ .directory)
    (extension : String) :
    tree.filesWith extension path =
      [path].filter fun file => Path.extension? file = some extension := by
  rw [filesWith, filesBelow, found]
  cases entry with
  | text => rfl
  | binary => rfl
  | directory => exact absurd rfl file

theorem filesWith_nothing {tree : FileTree} (missing : tree.find? path = none)
    (extension : String) : tree.filesWith extension path = [] := by
  rw [filesWith, filesBelow, missing]
  rfl

/-- A file that is found lies below the directory and has the extension at its place. -/
theorem extensionAt?_of_fileWith? {directory : Place} {entry : Place × FileEntry} {file : String}
    (isName : ∀ name ∈ entry.1, Path.IsName name)
    (found : fileWith? extension path (Path.placeFrom directory path) entry = some file) :
    Path.placeFrom directory path <+: entry.1 ∧ Path.extensionAt? entry.1 = some extension := by
  rw [fileWith?] at found
  split at found
  next below =>
    obtain ⟨rest, split⟩ := List.isPrefixOf_iff_prefix.mp below.1
    obtain ⟨rfl, given⟩ := Option.guard_eq_some_iff.mp found
    have same : Path.placeFrom directory
        ((entry.1.drop (Path.placeFrom directory path).length).foldl Path.join path) = entry.1 := by
      rw [Path.placeFrom_foldl_join directory path fun name member =>
          isName name (List.mem_of_mem_drop member), ← split, List.drop_left]
    refine ⟨⟨rest, split⟩, ?_⟩
    rw [← same]
    exact Path.extensionAt?_placeFrom directory (by simpa using given)
  next => cases found

/-- The path of a file that is found adds names to the path at which it is found. -/
theorem IsProper.exists_names {tree : FileTree} {file : String} (proper : tree.IsProper)
    (member : file ∈ tree.filesWith extension path) :
    ∃ names : List String, (∀ name ∈ names, Path.IsName name) ∧
      file = names.foldl Path.join path := by
  have below := (List.mem_filter.mp member).1
  rw [filesBelow] at below
  split at below
  · cases below
  · obtain ⟨entry, there, given⟩ := List.mem_filterMap.mp below
    split at given
    · cases given
      exact ⟨_, fun name within => proper.isName entry there name (List.mem_of_mem_drop within),
        rfl⟩
    · cases given
  · exact ⟨[], by simp, List.mem_singleton.mp below⟩

/-- The files with an extension at a path or below it have places there with that extension. -/
theorem IsProper.of_mem_filesWith {tree : FileTree} {file : String} (proper : tree.IsProper)
    (member : file ∈ tree.filesWith extension path) :
    tree.placeOf path <+: tree.placeOf file ∧
      Path.extensionAt? (tree.placeOf file) = some extension := by
  obtain ⟨names, areNames, rfl⟩ := proper.exists_names member
  have extended := (List.mem_filter.mp member).2
  refine ⟨?_, Path.extensionAt?_placeFrom _ (by simpa using extended)⟩
  rw [placeOf, placeOf, Path.placeFrom_foldl_join _ path areNames]
  exact List.prefix_append _ names

/-- Writing changes nothing of what is found at a path and below it, if it writes no file there with
the extension. -/
theorem Written.filesWith (written : Written region before after) (proper : before.IsProper)
    (isName : ∀ place, region place → ∀ name ∈ place, Path.IsName name)
    (foreign : ∀ place, region place → before.placeOf path <+: place →
      Path.extensionAt? place ≠ some extension)
    (leaves : before.leavesPresent path = true) :
    after.filesWith extension path = before.filesWith extension path := by
  have ignored (place : Place) (entry : FileEntry) (within : region place) :
      fileWith? extension path (before.placeOf path) (place, entry) = none := by
    by_contra some
    obtain ⟨file, found⟩ := Option.ne_none_iff_exists'.mp some
    obtain ⟨below, same⟩ := extensionAt?_of_fileWith? (isName place within) found
    exact foreign place within below same
  have directories (place : Place) :
      fileWith? extension path (before.placeOf path) (place, .directory) = none := by
    simp [fileWith?]
  cases found : before.find? path with
  | some held =>
    obtain ⟨place, entry⟩ := held
    obtain ⟨reaches, rfl, there⟩ := find?_eq_some_iff.mp found
    have leads {entry : FileEntry} (there : after.entry? (before.placeOf path) = some entry) :
        after.find? path = some (before.placeOf path, entry) :=
      find?_eq_some_iff.mpr ⟨written.reaches reaches, (written.placeOf path).symm, there⟩
    by_cases directory : entry = .directory
    · subst directory
      rw [filesWith_directory found, filesWith_directory (leads (written.directory_stays there))]
      exact written.filterMap_entries ignored directories
    · rw [filesWith_file found directory]
      rcases written.entry? (before.placeOf path) with kept | ⟨absent, -⟩ | ⟨-, -, content, made⟩
      · exact filesWith_file (leads (kept.trans there)) directory extension
      · cases absent.symm.trans there
      · exact filesWith_file (leads made) nofun extension
  | none =>
    rw [filesWith_nothing found]
    cases later : after.find? path with
    | none => exact filesWith_nothing later extension
    | some held =>
      obtain ⟨place, entry⟩ := held
      obtain ⟨reaches, rfl, there⟩ := find?_eq_some_iff.mp later
      have absent : before.entry? (before.placeOf path) = none := by
        by_contra present
        obtain ⟨entry, there⟩ := Option.ne_none_iff_exists'.mp present
        have reached := written.reaches_before proper leaves present reaches
        cases found.symm.trans (find?_eq_some_iff.mpr ⟨reached, rfl, there⟩)
      rw [written.placeOf] at later there
      by_cases directory : entry = .directory
      · subst directory
        rw [filesWith_directory later, List.filterMap_eq_nil_iff]
        rintro ⟨target, entry⟩ member
        by_contra some
        obtain ⟨file, given⟩ := Option.ne_none_iff_exists'.mp some
        rcases written.mem_entries member with earlier | rfl | within
        · obtain ⟨⟨rest, rfl⟩, -⟩ :=
            extensionAt?_of_fileWith? (proper.isName _ earlier) given
          exact proper.present_above earlier absent
        · exact absurd (directories target) some
        · exact absurd (ignored target entry within) some
      · have within : region (before.placeOf path) := by
          rcases written.entry? (before.placeOf path) with kept | ⟨-, made⟩ | ⟨within, -, -⟩
          · cases absent.symm.trans (kept.symm.trans there)
          · exact absurd (Option.some.inj (there.symm.trans made)) directory
          · exact within
        rw [filesWith_file later directory, List.filter_eq_nil_iff]
        intro file member given
        rw [List.mem_singleton.mp member, decide_eq_true_eq] at given
        exact foreign _ within List.prefix_rfl (Path.extensionAt?_placeFrom _ given)

end SqlPipeline.FileTree
