import SqlPipeline.Proofs.Files.Discovery

/-!
# Each file is listed once

Listing the files with an extension at a path gives a path to every such file there, and no other.
In a tree that has one entry for each place, no two of these paths lead to the same file.
-/

namespace SqlPipeline

/-! ## File names -/

namespace Path

variable {base path name : String} {front names : List String}

theorem exists_parts_of_absolute (absolute : isAbsolute path = true) :
    ∃ next rest, parts path = "" :: next :: rest := by
  rw [isAbsolute, beq_iff_eq] at absolute
  obtain ⟨letters, spelled⟩ := List.head?_eq_some_iff.mp absolute
  have split : parts path = "" :: (Text.splitOnChar '/' letters).map String.ofList := by
    rw [parts, spelled, Text.splitOnChar, if_pos rfl]
    rfl
  cases rest : Text.splitOnChar '/' letters with
  | nil => exact absurd rest (Text.splitOnChar_ne_nil '/' letters)
  | cons next others => exact ⟨_, _, by rw [split, rest, List.map_cons]⟩

theorem trimParts_of_meaningful (absolute : Bool) (meaningful : isTrivial name = false)
    (others : List String) : trimParts absolute (name :: others) = name :: others := by
  have pointless : name ≠ "." := by
    rintro rfl
    cases meaningful
  unfold trimParts
  split
  next empty => cases empty
  next point => exact absurd (List.cons.inj point).1 pointless
  next same =>
    obtain ⟨rfl, rfl⟩ := List.cons.inj same
    rw [if_neg (by simp [meaningful])]

theorem exists_reversedParts (ends : parts path = front ++ [name])
    (meaningful : isTrivial name = false) : ∃ others, reversedParts path = name :: others := by
  have own : ∃ others, (if isAbsolute path then (parts path).tail else parts path).reverse =
      name :: others := by
    split
    next absolute =>
      obtain ⟨next, rest, split⟩ := exists_parts_of_absolute absolute
      have some : front ≠ [] := by
        rintro rfl
        simp [ends] at split
      obtain ⟨head, front, rfl⟩ := List.exists_cons_of_ne_nil some
      rw [ends, List.cons_append, List.tail_cons, List.reverse_append]
      exact ⟨_, rfl⟩
    next =>
      rw [ends, List.reverse_append]
      exact ⟨_, rfl⟩
  obtain ⟨others, own⟩ := own
  exact ⟨others, by rw [reversedParts, own, trimParts_of_meaningful _ meaningful]⟩

/-- The last part of a path is its file name, if it can be one. -/
theorem fileName?_of_parts (ends : parts path = front ++ [name])
    (meaningful : isTrivial name = false) (inside : name ≠ "..") :
    fileName? path = some name := by
  have pointless : name ≠ "." := by
    rintro rfl
    cases meaningful
  obtain ⟨others, reversed⟩ := exists_reversedParts ends meaningful
  rw [fileName?, reversed]
  dsimp only
  rw [if_neg (by simp [pointless, inside])]

theorem fileName?_join (base : String) (isName : IsName name) :
    fileName? (join base name) = some name := by
  obtain ⟨-, front, joined, -⟩ := exists_parts_join base isName.relative
  rw [isName.parts_eq] at joined
  exact fileName?_of_parts joined isName.meaningful isName.inside

/-- Below a path, the extension of a file is that of its place. -/
theorem extension?_foldl_join (path : String) (further : names ≠ [])
    (areNames : ∀ name ∈ names, IsName name) :
    extension? (names.foldl join path) = extensionAt? names := by
  obtain ⟨front, name, rfl⟩ := List.eq_nil_or_concat' names |>.resolve_left further
  have isName := areNames name (by simp)
  rw [List.foldl_append, List.foldl_cons, List.foldl_nil, extension?, fileName?_join _ isName,
    extensionAt?, List.getLast?_concat]

end Path

namespace FileTree

variable {tree : FileTree} {path name extension file : String} {place directory : Place}
  {entry : FileEntry} {names front steps : List String}

/-! ## Paths below a directory -/

theorem passes_append_iff {back : List String} : tree.Passes place (front ++ back) ↔
    tree.Passes place front ∧ tree.Passes (front.foldl Path.enter place) back := by
  induction front generalizing place with
  | nil => exact iff_of_eq (true_and _).symm
  | cons step front ih => exact (and_congr_right fun _ => ih).trans and_assoc.symm

/-- The steps of a path, and those of a name below it. -/
theorem exists_steps_join (path : String) (isName : Path.IsName name) :
    ∃ front ending, FileTree.steps path = front ++ ending ∧ (ending = [] ∨ ending = ["."]) ∧
      FileTree.steps (Path.join path name) = front ++ [name] := by
  obtain ⟨-, front, joined, own⟩ := Path.exists_parts_join path isName.relative
  rw [isName.parts_eq] at joined
  have nonempty : name ≠ "" := by
    rintro rfl
    cases isName.meaningful
  have filtered : (Path.parts path).filter (· ≠ "") = front.filter (· ≠ "") := by
    rcases own with own | own
    · rw [own]
    · rw [own, List.filter_append]
      exact List.append_nil _
  refine ⟨front.filter (· ≠ ""), _, by rw [FileTree.steps, filtered], ?_, ?_⟩
  · split
    · exact .inr rfl
    · exact .inl rfl
  · rw [FileTree.steps, joined, List.getLast?_concat, if_neg (by simp [nonempty]),
      List.filter_append, List.filter_cons_of_pos (by simpa using nonempty), List.append_nil]
    rfl

/-- A name below a directory can be reached. -/
theorem Reaches.join_name (reaches : tree.Reaches path)
    (inside : tree.entry? (tree.placeOf path) = some .directory) (isName : Path.IsName name) :
    tree.Reaches (Path.join path name) := by
  obtain ⟨front, ending, whole, meaningless, joined⟩ := exists_steps_join path isName
  have start : tree.startOf (Path.join path name) = tree.startOf path := by
    rw [startOf, (Path.exists_parts_join path isName.relative).1, startOf]
  have passes := reaches.2
  rw [whole, passes_append_iff] at passes
  have place : front.foldl Path.enter (tree.startOf path) = tree.placeOf path := by
    rw [← placeOf_eq, whole, List.foldl_append]
    rcases meaningless with rfl | rfl <;> rfl
  refine ⟨?_, ?_⟩
  · by_contra empty
    have none : Path.join path name = "" := by simpa using empty
    rw [none] at joined
    exact absurd joined (by simp [FileTree.steps, Path.parts_empty])
  · rw [start, joined, passes_append_iff, place]
    exact ⟨passes.1, inside, trivial⟩

/-- Whatever lies below a path that can be reached can be reached. -/
theorem IsProper.reaches_foldl_join (proper : tree.IsProper) (reaches : tree.Reaches path)
    (areNames : ∀ name ∈ names, Path.IsName name)
    (there : ∃ entry, (tree.placeOf path ++ names, entry) ∈ tree.entries) :
    tree.Reaches (names.foldl Path.join path) := by
  induction names generalizing path with
  | nil => exact reaches
  | cons name names ih =>
    have isName := areNames name List.mem_cons_self
    have inside := proper.directory_above (tree.placeOf path) (List.cons_ne_nil name names) there
    refine ih (reaches.join_name inside isName)
      (fun other member => areNames other (List.mem_cons_of_mem _ member)) ?_
    rw [placeOf, Path.placeFrom_join_name _ _ isName, List.append_assoc]
    exact there

/-! ## Paths of files -/

/-- The last step to a file is its name. -/
theorem IsProper.exists_last_step (proper : tree.IsProper)
    (start : tree.entry? place = some .directory) (passes : tree.Passes place steps)
    (file : tree.entry? (steps.foldl Path.enter place) ≠ some .directory) :
    ∃ front name, steps = front ++ [name] ∧ Path.isTrivial name = false ∧ name ≠ ".." := by
  rcases List.eq_nil_or_concat' steps with rfl | ⟨front, name, rfl⟩
  · exact absurd start file
  · have inside := (passes_append_iff.mp passes).2.1
    rw [List.foldl_append, List.foldl_cons, List.foldl_nil] at file
    refine ⟨front, name, rfl, ?_, ?_⟩
    · by_contra trivial
      rw [Path.enter_of_trivial _ (by simpa using trivial)] at file
      exact file inside
    · rintro rfl
      rw [Path.enter_parent] at file
      generalize front.foldl Path.enter place = above at inside file
      by_cases root : above = []
      · subst root
        exact file tree.entry?_nil
      · exact file (proper.inside _ (mem_entries_of_entry?_eq_some root inside))

/-- A path that leads to a file ends with its name. -/
theorem IsProper.exists_last_part (proper : tree.IsProper) (reaches : tree.Reaches path)
    (file : tree.entry? (tree.placeOf path) ≠ some .directory) :
    ∃ front name, Path.parts path = front ++ [name] ∧ Path.isTrivial name = false ∧
      name ≠ ".." := by
  have start : tree.entry? (tree.startOf path) = some .directory := by
    rw [startOf]
    split
    · exact tree.entry?_nil
    · exact proper.working
  rw [← placeOf_eq] at file
  obtain ⟨front, name, ends, meaningful, inside⟩ := proper.exists_last_step start reaches.2 file
  obtain ⟨before, last, split⟩ :=
    List.eq_nil_or_concat' (Path.parts path) |>.resolve_left (Path.parts_ne_nil path)
  -- A slash at the end would add a point as the last step.
  have own : last = name := by
    rw [FileTree.steps, split, List.filter_append, List.getLast?_concat] at ends
    by_cases empty : last = ""
    · subst empty
      split at ends
      next =>
        obtain rfl : "." = name := by simpa using congrArg List.getLast? ends
        cases meaningful
      next short =>
        have none : before = [] := by
          by_contra some
          have length := List.length_pos_of_ne_nil some
          exact short ⟨by rw [List.length_append, List.length_singleton]; omega, rfl⟩
        rw [none] at ends
        simp at ends
    · rw [if_neg (by simp [empty]), List.append_nil,
        List.filter_cons_of_pos (by simpa using empty)] at ends
      simpa using congrArg List.getLast? ends
  exact ⟨before, name, own ▸ split, meaningful, inside⟩

/-- The last name of the place of a file is the file name of each path that leads there. -/
theorem IsProper.fileName?_of_file (proper : tree.IsProper) (reaches : tree.Reaches path)
    (file : tree.entry? (tree.placeOf path) ≠ some .directory) :
    Path.fileName? path = (tree.placeOf path).getLast? := by
  obtain ⟨front, name, ends, meaningful, inside⟩ := proper.exists_last_part reaches file
  have named := Path.fileName?_of_parts ends meaningful inside
  obtain ⟨above, leads⟩ := Path.exists_placeFrom_eq tree.workingDirectory named
  rw [named, placeOf, leads, List.getLast?_concat]

/-- The extension of a path that leads to a file is that of its place. -/
theorem IsProper.extension?_of_file (proper : tree.IsProper) (reaches : tree.Reaches path)
    (file : tree.entry? (tree.placeOf path) ≠ some .directory) :
    Path.extension? path = Path.extensionAt? (tree.placeOf path) := by
  rw [Path.extension?, proper.fileName?_of_file reaches file, Path.extensionAt?]

/-! ## Listed files -/

/-- A proper tree with one entry for each place. -/
structure IsFaithful (tree : FileTree) : Prop extends tree.IsProper where
  single : (tree.entries.map (·.1)).Nodup

/-- There is a file with an extension at the place. -/
def HoldsFile (tree : FileTree) (extension : String) (place : Place) : Prop :=
  ∃ entry, tree.entry? place = some entry ∧ entry ≠ .directory ∧
    Path.extensionAt? place = some extension

/-- Whether a path leads to the place or to a directory above it. -/
def leadsAbove (tree : FileTree) (path : String) (place : Place) : Bool :=
  (tree.find? path).any fun found => found.1.isPrefixOf place

theorem HoldsFile.extended (holds : tree.HoldsFile extension place) :
    Path.extensionAt? place = some extension := by
  obtain ⟨-, -, -, extended⟩ := holds
  exact extended

theorem HoldsFile.not_directory (holds : tree.HoldsFile extension place) :
    tree.entry? place ≠ some .directory := by
  obtain ⟨entry, there, file, -⟩ := holds
  rw [there]
  exact fun same => file (Option.some.inj same)

theorem HoldsFile.exists_mem_entries (holds : tree.HoldsFile extension place) :
    ∃ entry, (place, entry) ∈ tree.entries ∧ entry ≠ .directory := by
  obtain ⟨entry, there, file, -⟩ := holds
  have nonempty : place ≠ [] := by
    rintro rfl
    exact file (Option.some.inj there).symm
  exact ⟨entry, mem_entries_of_entry?_eq_some nonempty there, file⟩

theorem IsFaithful.entry?_of_mem (faithful : tree.IsFaithful) (nonempty : place ≠ [])
    (member : (place, entry) ∈ tree.entries) : tree.entry? place = some entry := by
  rw [FileTree.entry?, if_neg (by simpa using nonempty)]
  exact (NameMap.lookup_eq_some_iff faithful.single).mpr member

/-- The entry is that of a file with the extension below the directory. -/
def Lists (extension : String) (directory : Place) (entry : Place × FileEntry) : Prop :=
  (directory <+: entry.1 ∧ directory ≠ entry.1 ∧ entry.2 ≠ .directory) ∧
    Path.extensionAt? entry.1 = some extension

instance (extension : String) (directory : Place) (entry : Place × FileEntry) :
    Decidable (Lists extension directory entry) := inferInstanceAs (Decidable (_ ∧ _))

/-- An entry below a directory adds names to the place of the directory. -/
theorem IsProper.exists_names_below (proper : tree.IsProper) {entry : Place × FileEntry}
    (member : entry ∈ tree.entries) (below : directory <+: entry.1) :
    ∃ names, directory ++ names = entry.1 ∧ (∀ name ∈ names, Path.IsName name) ∧
      entry.1.drop directory.length = names := by
  obtain ⟨names, split⟩ := below
  exact ⟨names, split, fun name within =>
    proper.isName entry member name (split ▸ List.mem_append_right directory within),
    by rw [← split, List.drop_left]⟩

/-- An entry adds a path to the files with an extension below a directory just if it is that of such
a file. -/
theorem IsProper.fileWith?_eq_some_iff (proper : tree.IsProper) {entry : Place × FileEntry}
    (member : entry ∈ tree.entries) :
    fileWith? extension path directory entry = some file ↔ Lists extension directory entry ∧
      file = (entry.1.drop directory.length).foldl Path.join path := by
  rw [fileWith?, Lists, ← List.isPrefixOf_iff_prefix]
  split
  next below =>
    obtain ⟨names, split, areNames, rest⟩ :=
      proper.exists_names_below member (List.isPrefixOf_iff_prefix.mp below.1)
    have further : names ≠ [] := by
      rintro rfl
      exact below.2.1 ((List.append_nil directory).symm.trans split)
    have own : Path.extension? (names.foldl Path.join path) = Path.extensionAt? entry.1 := by
      rw [Path.extension?_foldl_join path further areNames, ← split, Path.extensionAt?,
        Path.extensionAt?, List.getLast?_append_of_ne_nil _ further]
    rw [and_iff_right below, rest, Option.guard_eq_some_iff, decide_eq_true_eq]
    constructor
    · rintro ⟨rfl, extended⟩
      exact ⟨own.symm.trans extended, rfl⟩
    · rintro ⟨extended, rfl⟩
      exact ⟨rfl, own.trans extended⟩
  next apart => exact ⟨by rintro ⟨⟩, fun fits => absurd fits.1.1 apart⟩

/-- The files that are listed below a directory lie at the places of their entries. -/
theorem IsProper.map_placeOf_filesWith (proper : tree.IsProper)
    (found : tree.find? path = some (directory, .directory)) :
    (tree.filesWith extension path).map tree.placeOf =
      (tree.entries.filter (Lists extension directory)).map (·.1) := by
  obtain ⟨-, rfl, -⟩ := find?_eq_some_iff.mp found
  rw [filesWith_directory found, List.map_filterMap, ← List.filterMap_eq_map, List.filterMap_filter]
  refine List.filterMap_congr fun entry member => ?_
  by_cases listed : Lists extension (tree.placeOf path) entry
  · obtain ⟨names, split, areNames, rest⟩ := proper.exists_names_below member listed.1.1
    have joined : fileWith? extension path (tree.placeOf path) entry =
        some (names.foldl Path.join path) :=
      (proper.fileWith?_eq_some_iff member).mpr ⟨listed, by rw [rest]⟩
    rw [joined, if_pos (by simpa using listed), Option.map_some, placeOf,
      Path.placeFrom_foldl_join _ path areNames]
    exact congrArg some split
  · have absent : fileWith? extension path (tree.placeOf path) entry = none := by
      by_contra some
      obtain ⟨file, joined⟩ := Option.ne_none_iff_exists'.mp some
      exact listed ((proper.fileWith?_eq_some_iff member).mp joined).1
    rw [absent, if_neg (by simpa using listed), Option.map_none]

/-- In a directory there is one path to each file with the extension, and none to another place. -/
theorem IsFaithful.mem_map_placeOf_filesWith (faithful : tree.IsFaithful)
    (found : tree.find? path = some (directory, .directory)) :
    place ∈ (tree.filesWith extension path).map tree.placeOf ↔
      tree.HoldsFile extension place ∧ directory <+: place := by
  have start := (find?_eq_some_iff.mp found).2.2
  rw [faithful.map_placeOf_filesWith found, List.mem_map]
  simp only [List.mem_filter, decide_eq_true_eq]
  constructor
  · rintro ⟨⟨place, entry⟩, ⟨member, ⟨below, different, file⟩, extended⟩, rfl⟩
    have nonempty : place ≠ [] := by
      rintro rfl
      exact different (List.prefix_nil.mp below)
    exact ⟨⟨entry, faithful.entry?_of_mem nonempty member, file, extended⟩, below⟩
  · rintro ⟨holds, below⟩
    obtain ⟨entry, member, file⟩ := holds.exists_mem_entries
    have extended := holds.extended
    have different : directory ≠ place := by
      rintro rfl
      exact holds.not_directory start
    exact ⟨(place, entry), ⟨member, ⟨below, different, file⟩, extended⟩, rfl⟩

/-- Nothing lies below a file. -/
theorem IsProper.eq_of_prefix_of_file (proper : tree.IsProper)
    (file : tree.entry? directory ≠ some .directory) (there : tree.entry? place ≠ none)
    (below : directory <+: place) : directory = place := by
  obtain ⟨names, rfl⟩ := below
  by_contra different
  have further : names ≠ [] := by
    rintro rfl
    exact different (List.append_nil _).symm
  obtain ⟨entry, there⟩ := Option.ne_none_iff_exists'.mp there
  have nonempty : directory ++ names ≠ [] := fun none => further (List.append_eq_nil_iff.mp none).2
  exact file (proper.directory_above directory further
    ⟨entry, mem_entries_of_entry?_eq_some nonempty there⟩)

/-- A file is listed once at every path that leads to it or to a directory above it, and not at
other paths. -/
theorem IsFaithful.count_filesWith (faithful : tree.IsFaithful)
    (holds : tree.HoldsFile extension place) :
    ((tree.filesWith extension path).map tree.placeOf).count place =
      if tree.leadsAbove path place then 1 else 0 := by
  cases found : tree.find? path with
  | none => simp [filesWith_nothing found, leadsAbove, found]
  | some held =>
    obtain ⟨above, entry⟩ := held
    have leads : tree.leadsAbove path place = above.isPrefixOf place := by
      rw [leadsAbove, found, Option.any_some]
    rw [leads]
    by_cases directory : entry = .directory
    · subst directory
      have single : ((tree.filesWith extension path).map tree.placeOf).Nodup := by
        rw [faithful.map_placeOf_filesWith found]
        exact faithful.single.sublist (List.filter_sublist.map _)
      rw [single.count]
      refine if_congr ?_ rfl rfl
      rw [faithful.mem_map_placeOf_filesWith found, and_iff_right holds, List.isPrefixOf_iff_prefix]
    · obtain ⟨reaches, rfl, there⟩ := find?_eq_some_iff.mp found
      obtain ⟨content, held, -, extended⟩ := holds
      have file : tree.entry? (tree.placeOf path) ≠ some .directory := by
        rw [there]
        exact fun same => directory (Option.some.inj same)
      rw [filesWith_file found directory]
      by_cases below : tree.placeOf path <+: place
      · have same := faithful.eq_of_prefix_of_file file (held ▸ Option.some_ne_none content) below
        have own : Path.extension? path = some extension := by
          rw [faithful.extension?_of_file reaches file, same, extended]
        rw [if_pos (List.isPrefixOf_iff_prefix.mpr below), List.filter_singleton, own]
        simp [same]
      · have different : tree.placeOf path ≠ place := fun same => below (same ▸ List.prefix_rfl)
        rw [if_neg (mt List.isPrefixOf_iff_prefix.mp below), List.count_eq_zero]
        rintro member
        obtain ⟨listed, within, same⟩ := List.mem_map.mp member
        rw [List.mem_singleton.mp (List.mem_filter.mp within).1] at same
        exact different same

/-- Every path that is listed can be followed to a file with the extension. -/
theorem IsFaithful.find?_of_mem_filesWith (faithful : tree.IsFaithful)
    (member : file ∈ tree.filesWith extension path) :
    tree.Reaches file ∧ tree.HoldsFile extension (tree.placeOf file) := by
  cases found : tree.find? path with
  | none =>
    rw [filesWith_nothing found] at member
    cases member
  | some held =>
    obtain ⟨above, entry⟩ := held
    obtain ⟨reaches, rfl, there⟩ := find?_eq_some_iff.mp found
    by_cases directory : entry = .directory
    · subst directory
      have holds := ((faithful.mem_map_placeOf_filesWith found).mp (List.mem_map_of_mem member)).1
      refine ⟨?_, holds⟩
      obtain ⟨names, areNames, rfl⟩ := faithful.exists_names member
      obtain ⟨content, listed, -⟩ := holds.exists_mem_entries
      rw [placeOf, Path.placeFrom_foldl_join _ path areNames] at listed
      exact faithful.reaches_foldl_join reaches areNames ⟨content, listed⟩
    · rw [filesWith_file found directory] at member
      obtain ⟨own, extended⟩ := List.mem_filter.mp member
      obtain rfl := List.mem_singleton.mp own
      have file : tree.entry? (tree.placeOf file) ≠ some .directory := by
        rw [there]
        exact fun same => directory (Option.some.inj same)
      rw [decide_eq_true_eq, faithful.extension?_of_file reaches file] at extended
      exact ⟨reaches, entry, there, directory, extended⟩

end FileTree
end SqlPipeline
