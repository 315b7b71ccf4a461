import Mathlib.Data.List.Induction
import SqlPipeline.NameMap
import SqlPipeline.Proofs.Files.Place
import SqlPipeline.Proofs.Success

/-!
# What paths lead to

A path can be followed exactly if each of its steps starts from a directory, and then it leads to
its place.  In a tree where everything lies in a directory, what is at the place of a path keeps the
path from failing on the way, unless the path steps back out of a place where nothing is.
-/

namespace SqlPipeline.FileTree

variable {tree : FileTree} {path step content : String} {place target : Place} {steps : List String}
  {entry : FileEntry} {present : Bool}

/-! ## Steps -/

/-- The place that a path leads to in a tree. -/
def placeOf (tree : FileTree) (path : String) : Place := Path.placeFrom tree.workingDirectory path

/-- The place that a path starts from. -/
def startOf (tree : FileTree) (path : String) : Place :=
  if Path.isAbsolute path then [] else tree.workingDirectory

theorem ne_empty_of_mem_steps (member : step ∈ FileTree.steps path) : step ≠ "" := by
  rw [FileTree.steps] at member
  rcases List.mem_append.mp member with part | ending
  · simpa using (List.mem_filter.mp part).2
  · split at ending
    · rw [List.mem_singleton.mp ending]
      decide
    · cases ending

theorem foldl_enter_steps (path : String) (place : Place) :
    (FileTree.steps path).foldl Path.enter place = (Path.parts path).foldl Path.enter place := by
  have ending : ∀ place : Place, (if 1 < (Path.parts path).length ∧
      (Path.parts path).getLast? = some "" then ["."] else []).foldl Path.enter place = place := by
    intro place
    split <;> rfl
  have filtered (parts : List String) (place : Place) :
      (parts.filter (· ≠ "")).foldl Path.enter place = parts.foldl Path.enter place := by
    induction parts generalizing place with
    | nil => rfl
    | cons part parts ih =>
      by_cases empty : part = ""
      · subst empty
        exact ih place
      · rw [List.filter_cons_of_pos (by simpa using empty), List.foldl_cons, List.foldl_cons, ih]
  rw [FileTree.steps, List.foldl_append, ending, filtered]

theorem placeOf_eq (tree : FileTree) (path : String) :
    (FileTree.steps path).foldl Path.enter (tree.startOf path) = tree.placeOf path :=
  foldl_enter_steps path _

/-- Each step starts from a directory. -/
def Passes (tree : FileTree) : Place → List String → Prop
  | _, [] => True
  | place, step :: steps =>
    tree.entry? place = some .directory ∧ Passes tree (Path.enter place step) steps

/-- A step from a directory goes on from where it leads, or it is the last one and nothing is
there. -/
theorem follow_cons (directory : tree.entry? place = some .directory) (nonempty : step ≠ "")
    (steps : List String) :
    tree.follow place (step :: steps) = tree.follow (Path.enter place step) steps ∨
      steps = [] ∧ tree.entry? (Path.enter place step) = none ∧
        tree.follow place (step :: steps) = .ok (Path.enter place step, false) := by
  rw [follow, directory]
  dsimp only
  by_cases point : step = "."
  · rw [if_pos point, Path.enter_of_trivial place (by simp [Path.isTrivial, point])]
    exact .inl rfl
  · by_cases back : step = ".."
    · rw [if_neg point, if_pos back, back, Path.enter_parent]
      exact .inl rfl
    · rw [if_neg point, if_neg back,
        Path.enter_of_meaningful place (by simp [Path.isTrivial, point, nonempty]) back]
      split
      next absent => exact .inr ⟨rfl, absent, rfl⟩
      next => exact .inl rfl

theorem follow_eq_ok (nonempty : ∀ step ∈ steps, step ≠ "")
    (run : tree.follow place steps = .ok (target, present)) :
    tree.Passes place steps ∧ target = steps.foldl Path.enter place ∧
      (present = false → tree.entry? target = none) := by
  induction steps generalizing place with
  | nil =>
    cases run
    exact ⟨trivial, rfl, nofun⟩
  | cons step steps ih =>
    have directory : tree.entry? place = some .directory := by
      rw [follow] at run
      split at run
      · cases run
      · assumption
      · cases run
    rcases follow_cons directory (nonempty step List.mem_cons_self) steps with
      on | ⟨rfl, absent, last⟩
    · obtain ⟨passes, same, missing⟩ :=
        ih (fun other member => nonempty other (List.mem_cons_of_mem _ member)) (on.symm.trans run)
      exact ⟨⟨directory, passes⟩, same, missing⟩
    · cases last.symm.trans run
      exact ⟨⟨directory, trivial⟩, rfl, fun _ => absent⟩

theorem Passes.exists_follow (passes : tree.Passes place steps)
    (nonempty : ∀ step ∈ steps, step ≠ "") :
    ∃ present, tree.follow place steps = .ok (steps.foldl Path.enter place, present) := by
  induction steps generalizing place with
  | nil => exact ⟨true, rfl⟩
  | cons step steps ih =>
    obtain ⟨directory, passes⟩ := passes
    rcases follow_cons directory (nonempty step List.mem_cons_self) steps with
      on | ⟨rfl, -, last⟩
    · rw [on]
      exact ih passes fun other member => nonempty other (List.mem_cons_of_mem _ member)
    · exact ⟨false, last⟩

/-! ## Paths -/

/-- A path can be followed to its end, whether or not something is there. -/
def Reaches (tree : FileTree) (path : String) : Prop :=
  path.isEmpty = false ∧ tree.Passes (tree.startOf path) (FileTree.steps path)

theorem resolve_eq_ok (run : tree.resolve path = .ok (place, present)) :
    tree.Reaches path ∧ place = tree.placeOf path ∧
      (present = false → tree.entry? place = none) := by
  rw [resolve] at run
  split at run
  · cases run
  next some =>
    obtain ⟨passes, same, missing⟩ := follow_eq_ok (fun _ => ne_empty_of_mem_steps) run
    exact ⟨⟨by simpa using some, passes⟩, same.trans (tree.placeOf_eq path), missing⟩

theorem Reaches.exists_resolve (reaches : tree.Reaches path) :
    ∃ present, tree.resolve path = .ok (tree.placeOf path, present) := by
  obtain ⟨present, run⟩ := reaches.2.exists_follow fun _ => ne_empty_of_mem_steps
  refine ⟨present, ?_⟩
  rw [resolve, reaches.1, if_neg Bool.false_ne_true, ← placeOf_eq]
  exact run

theorem find?_eq_some_iff : tree.find? path = some (place, entry) ↔
    tree.Reaches path ∧ place = tree.placeOf path ∧ tree.entry? place = some entry := by
  constructor
  · intro found
    rw [find?] at found
    split at found
    next target present run =>
      obtain ⟨other, there, same⟩ := Option.map_eq_some_iff.mp found
      cases same
      obtain ⟨reaches, same, -⟩ := resolve_eq_ok run
      exact ⟨reaches, same, there⟩
    next => cases found
  · rintro ⟨reaches, rfl, there⟩
    obtain ⟨present, run⟩ := reaches.exists_resolve
    rw [find?, run]
    exact Option.map_eq_some_iff.mpr ⟨entry, there, rfl⟩

theorem read_eq_ok_iff : tree.read path = .ok content ↔
    tree.Reaches path ∧ tree.entry? (tree.placeOf path) = some (.text content) := by
  constructor
  · intro run
    obtain ⟨⟨place, present⟩, resolved, run⟩ := bind_eq_ok_iff.mp run
    obtain ⟨reaches, rfl, -⟩ := resolve_eq_ok resolved
    refine ⟨reaches, ?_⟩
    dsimp only at run
    split at run <;> cases run
    assumption
  · rintro ⟨reaches, there⟩
    obtain ⟨present, run⟩ := reaches.exists_resolve
    rw [read, run]
    dsimp only [bind, Except.bind]
    rw [there]

/-! ## Trees as systems keep them -/

/-- Everything in a tree has a name of its own in a directory, and the working directory is one. -/
structure IsProper (tree : FileTree) : Prop where
  isName : ∀ entry ∈ tree.entries, ∀ name ∈ entry.1, Path.IsName name
  inside : ∀ entry ∈ tree.entries, tree.entry? entry.1.dropLast = some .directory
  working : tree.entry? tree.workingDirectory = some .directory

theorem mem_entries_of_entry?_eq_some (nonempty : place ≠ [])
    (there : tree.entry? place = some entry) : (place, entry) ∈ tree.entries := by
  rw [FileTree.entry?, if_neg (by simpa using nonempty)] at there
  exact NameMap.mem_of_lookup there

theorem entry?_ne_none_of_mem (member : (place, entry) ∈ tree.entries) :
    tree.entry? place ≠ none := by
  intro absent
  rw [FileTree.entry?] at absent
  split at absent
  · cases absent
  · exact absurd (List.lookup_eq_none_iff.mp absent _ member) (by simp)

theorem entry?_nil (tree : FileTree) : tree.entry? [] = some .directory := rfl

/-- What lies above something that is there is a directory. -/
theorem IsProper.directory_above (proper : tree.IsProper) (above : Place) {below : Place}
    (further : below ≠ []) (there : ∃ entry, (above ++ below, entry) ∈ tree.entries) :
    tree.entry? above = some .directory := by
  induction below using List.reverseRecOn with
  | nil => exact absurd rfl further
  | append_singleton below name ih =>
    obtain ⟨entry, member⟩ := there
    have directory := proper.inside _ member
    dsimp only at directory
    rw [← List.append_assoc, List.dropLast_concat] at directory
    by_cases last : below = []
    · rwa [last, List.append_nil] at directory
    · have nonempty : above ++ below ≠ [] := fun none => last (List.append_eq_nil_iff.mp none).2
      exact ih last ⟨_, mem_entries_of_entry?_eq_some nonempty directory⟩

/-- Nothing is missing above an entry. -/
theorem IsProper.present_above (proper : tree.IsProper) {above below : Place}
    (member : (above ++ below, entry) ∈ tree.entries) : tree.entry? above ≠ none := by
  by_cases here : below = []
  · rw [here, List.append_nil] at member
    exact entry?_ne_none_of_mem member
  · rw [proper.directory_above above here ⟨entry, member⟩]
    exact Option.some_ne_none _

theorem IsProper.isName_workingDirectory (proper : tree.IsProper) :
    ∀ name ∈ tree.workingDirectory, Path.IsName name := by
  intro name member
  have nonempty : tree.workingDirectory ≠ [] := List.ne_nil_of_mem member
  exact proper.isName _ (mem_entries_of_entry?_eq_some nonempty proper.working) name member

theorem IsProper.isName_placeOf (proper : tree.IsProper) (path : String) :
    ∀ name ∈ tree.placeOf path, Path.IsName name :=
  Path.isName_of_mem_placeFrom proper.isName_workingDirectory path

/-- Whether each step back leaves a place where something is. -/
def leavesPresentFrom (tree : FileTree) : Place → List String → Bool
  | _, [] => true
  | place, step :: steps =>
    (step != ".." || (tree.entry? place).isSome) &&
      leavesPresentFrom tree (Path.enter place step) steps

/-- Whether each step back of a path leaves a place where something is. -/
def leavesPresent (tree : FileTree) (path : String) : Bool :=
  tree.leavesPresentFrom (tree.startOf path) (FileTree.steps path)

/-- A step leads from nothing to nothing, unless it is a step back. -/
theorem IsProper.present_of_enter (proper : tree.IsProper) (nonempty : step ≠ "")
    (leaves : (step != ".." || (tree.entry? place).isSome) = true)
    (present : tree.entry? (Path.enter place step) ≠ none) : tree.entry? place ≠ none := by
  by_cases back : step = ".."
  · simpa [back, Option.isSome_iff_ne_none] using leaves
  by_cases point : step = "."
  · rwa [Path.enter_of_trivial place (by simp [Path.isTrivial, point])] at present
  rw [Path.enter_of_meaningful place (by simp [Path.isTrivial, point, nonempty]) back] at present
  obtain ⟨entry, there⟩ := Option.ne_none_iff_exists'.mp present
  exact proper.present_above (mem_entries_of_entry?_eq_some (by simp) there)

end SqlPipeline.FileTree
