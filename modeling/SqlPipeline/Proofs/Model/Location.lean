import SqlPipeline.Proofs.Model.Reloading
import SqlPipeline.Proofs.Model.Validation

/-!
# Where the paths of models lead

The path of a model is that of its file without the directory of the project.  If the model
directories are relative and do not step back, no path of a model steps back either.
-/

namespace SqlPipeline

namespace Path

variable {base path name : String} {front tail : List String}

theorem staysWithin_of_not_mem (depth : Nat) {parts : List String} (forward : ".." ∉ parts) :
    staysWithin depth parts = true := by
  induction parts generalizing depth with
  | nil => rfl
  | cons part parts ih =>
    rw [List.mem_cons, not_or] at forward
    rw [staysWithin, if_neg (Ne.symm forward.1)]
    split <;> exact ih _ forward.2

/-- Parts without slashes are read back from their text. -/
theorem parts_intercalate {part : String} {others : List String}
    (single : ∀ other ∈ part :: others, '/' ∉ other.toList) :
    parts ("/".intercalate (part :: others)) = part :: others := by
  induction others generalizing part with
  | nil =>
    rw [String.intercalate_singleton, parts,
      Text.splitOnChar_of_not_mem (single part List.mem_cons_self), List.map_singleton,
      String.ofList_toList]
  | cons next others ih =>
    rw [String.intercalate_cons_cons, parts_append_slash,
      ih fun other member => single other (List.mem_cons_of_mem _ member), parts,
      Text.splitOnChar_of_not_mem (single part List.mem_cons_self), List.map_singleton,
      String.ofList_toList]
    rfl

theorem dropComponents?_append (front tail : List String) :
    dropComponents? ((front.filter fun part => !isTrivial part).map component) (front ++ tail) =
      some (tail.dropWhile isTrivial) := by
  induction front with
  | nil => rw [List.filter_nil, List.map_nil, List.nil_append, dropComponents?]
  | cons part front ih =>
    by_cases trivial : isTrivial part = true
    · rw [List.filter_cons_of_neg (by simpa using trivial), List.cons_append]
      cases listed : front.filter fun part => !isTrivial part with
      | nil =>
        rw [listed] at ih
        rw [List.map_nil, dropComponents?, List.dropWhile_cons, if_pos trivial]
        rw [List.map_nil, dropComponents?] at ih
        exact ih
      | cons first others =>
        rw [listed] at ih
        rw [List.map_cons, dropComponents?, if_pos trivial]
        exact ih
    · rw [List.filter_cons_of_pos (by simpa using trivial), List.cons_append, List.map_cons,
        dropComponents?, if_neg trivial, if_pos rfl]
      exact ih

/-- A path goes on from a base with parts that do not step back. -/
structure GoesOn (base path : String) (front tail : List String) : Prop where
  absolute : isAbsolute path = isAbsolute base
  parts : parts path = front ++ tail
  base : Path.parts base = front ∨ Path.parts base = front ++ [""]
  further : tail ≠ []
  forward : ".." ∉ tail

theorem exists_goesOn_join (base : String) (relative : isAbsolute path = false)
    (forward : ".." ∉ parts path) : ∃ front tail, GoesOn base (join base path) front tail := by
  obtain ⟨absolute, front, joined, own⟩ := exists_parts_join base relative
  exact ⟨front, parts path, absolute, joined, own, parts_ne_nil path, forward⟩

theorem GoesOn.join_name (goes : GoesOn base path front tail) (isName : IsName name) :
    ∃ tail, GoesOn base (join path name) front tail := by
  obtain ⟨absolute, start, joined, own⟩ := exists_parts_join path isName.relative
  rw [isName.parts_eq] at joined
  rcases own with own | own
  · refine ⟨tail ++ [name], absolute.trans goes.absolute, ?_, goes.base, by simp, ?_⟩
    · rw [joined, ← own, goes.parts, List.append_assoc]
    · simpa using ⟨goes.forward, Ne.symm isName.inside⟩
  · have dropped : start = front ++ tail.dropLast := by
      have same := congrArg List.dropLast (own.symm.trans goes.parts)
      rwa [List.dropLast_concat, List.dropLast_append_of_ne_nil goes.further] at same
    refine ⟨tail.dropLast ++ [name], absolute.trans goes.absolute, ?_, goes.base, by simp, ?_⟩
    · rw [joined, dropped, List.append_assoc]
    · have before : ".." ∉ tail.dropLast := fun member =>
        goes.forward ((List.dropLast_sublist tail).subset member)
      simpa using ⟨before, Ne.symm isName.inside⟩

/-- The components of a base are those of the meaningful parts of a path that goes on from it. -/
theorem GoesOn.filter_parts (goes : GoesOn base path front tail) :
    (Path.parts base).filter (fun part => !isTrivial part) =
      front.filter fun part => !isTrivial part := by
  rcases goes.base with own | own
  · rw [own]
  · rw [own, List.filter_append]
    exact List.append_nil _

/-- The meaningful rest of a path is relative and does not step back. -/
theorem GoesOn.rest (goes : GoesOn base path front tail) :
    isAbsolute ("/".intercalate (tail.dropWhile isTrivial)) = false ∧
      ".." ∉ Path.parts ("/".intercalate (tail.dropWhile isTrivial)) := by
  have within : ∀ part ∈ tail.dropWhile isTrivial, part ∈ tail := fun part member =>
    (List.dropWhile_sublist isTrivial).subset member
  have single : ∀ part ∈ tail.dropWhile isTrivial, '/' ∉ part.toList := fun part member =>
    not_mem_of_mem_parts (show part ∈ Path.parts path from
      goes.parts ▸ List.mem_append_right front (within part member))
  cases left : tail.dropWhile isTrivial with
  | nil => exact ⟨rfl, by decide⟩
  | cons head others =>
    rw [left] at within single
    have meaningful : isTrivial head = false := by
      have starts := List.head?_dropWhile_not isTrivial tail
      rw [left] at starts
      simpa using starts
    have first := single head List.mem_cons_self
    refine ⟨?_, ?_⟩
    · have relative : isAbsolute head = false := by
        rw [isAbsolute, beq_eq_false_iff_ne]
        exact fun slash => first (List.mem_of_mem_head? slash)
      cases others with
      | nil => rwa [String.intercalate_singleton]
      | cons next others =>
        have nonempty : head ≠ "" := by
          rintro rfl
          cases meaningful
        rwa [String.intercalate_cons_cons, String.append_assoc, isAbsolute_append nonempty]
    · rw [parts_intercalate single]
      exact fun back => goes.forward (within _ back)

/-- A relative path that does not start with a point is compared part by part with a base. -/
theorem below?_of_relative {first : Component} {others : List Component}
    (listed : components base = first :: others)
    (named : first = .parent ∨ ∃ name, first = .normal name)
    (relative : isAbsolute path = false) (starts : ∀ later, Path.parts path ≠ "." :: later) :
    Path.below? base path =
      (dropComponents? (first :: others) (Path.parts path)).map "/".intercalate := by
  rcases named with rfl | ⟨name, rfl⟩
  · rw [Path.below?, listed, relative]
    dsimp only
    split
    next _ same => exact absurd same (starts _)
    next => rfl
    next impossible => cases impossible
  · rw [Path.below?, listed, relative]
    dsimp only
    split
    next _ same => exact absurd same (starts _)
    next => rfl
    next impossible => cases impossible

theorem GoesOn.below?_of_absolute (goes : GoesOn base path front tail)
    (absolute : isAbsolute base = true) :
    Path.below? base path = some ("/".intercalate (tail.dropWhile isTrivial)) := by
  rw [Path.below?, components, if_pos absolute]
  dsimp only
  rw [goes.filter_parts, goes.absolute, absolute, if_pos rfl, goes.parts, dropComponents?_append]
  rfl

/-- A base that starts with a point has it as its first component. -/
theorem GoesOn.below?_of_point (goes : GoesOn base path front tail) {others : List String}
    (relative : isAbsolute base = false) (point : Path.parts base = "." :: others) :
    Path.below? base path = some ("/".intercalate (tail.dropWhile isTrivial)) := by
  obtain ⟨front, rfl⟩ : ∃ later, front = "." :: later := by
    rcases goes.base with own | own
    · exact ⟨others, own.symm.trans point⟩
    · cases front with
      | nil => exact absurd (List.cons.inj (own.symm.trans point)).1 (by decide)
      | cons head front =>
        obtain ⟨rfl, -⟩ := List.cons.inj (own.symm.trans point)
        exact ⟨front, rfl⟩
  have meaningful := goes.filter_parts
  rw [point] at meaningful
  rw [Path.below?, components, relative, if_neg Bool.false_ne_true, point]
  dsimp only
  rw [goes.absolute, relative, goes.parts, List.cons_append]
  change Option.map _ (dropComponents?
    ((others.filter fun part => !isTrivial part).map component) (front ++ tail)) = _
  rw [show others.filter (fun part => !isTrivial part) =
    front.filter fun part => !isTrivial part from meaningful, dropComponents?_append]
  rfl

/-- A relative base without a point at its start is left out of the path, or it has no components
and the path is kept as it is. -/
theorem GoesOn.below?_of_plain (goes : GoesOn base path front tail)
    (relative : isAbsolute base = false) (plain : ∀ others, Path.parts base ≠ "." :: others) :
    Path.below? base path = some ("/".intercalate (tail.dropWhile isTrivial)) ∨
      Path.below? base path = some path ∧ ".." ∉ front := by
  have listed : components base = (front.filter fun part => !isTrivial part).map component := by
    rw [components, relative, if_neg Bool.false_ne_true]
    dsimp only
    split
    next others point => exact absurd point (plain others)
    next => rw [goes.filter_parts]
  cases meaningful : front.filter fun part => !isTrivial part with
  | nil =>
    refine .inr ⟨?_, fun back => ?_⟩
    · rw [Path.below?, listed, meaningful]
      rfl
    · have kept : ".." ∈ front.filter fun part => !isTrivial part :=
        List.mem_filter.mpr ⟨back, rfl⟩
      rw [meaningful] at kept
      cases kept
  | cons first others =>
    have dropped := dropComponents?_append front tail
    rw [meaningful] at dropped listed
    have starts : ∀ later, front ++ tail ≠ "." :: later := by
      intro later same
      cases front with
      | nil => cases meaningful
      | cons head front =>
        obtain ⟨rfl, -⟩ := List.cons.inj same
        exact goes.base.elim (plain _) (plain _)
    have named : component first = .parent ∨ ∃ name, component first = .normal name := by
      rw [component]
      split
      · exact .inl rfl
      · exact .inr ⟨first, rfl⟩
    rw [below?_of_relative listed named (goes.absolute.trans relative) (by rwa [goes.parts]),
      goes.parts]
    exact .inl (congrArg (Option.map "/".intercalate) dropped)

/-- What is left of a path below a base that it goes on from is relative and does not step back. -/
theorem GoesOn.below? (goes : GoesOn base path front tail) :
    ∃ rest, Path.below? base path = some rest ∧ isAbsolute rest = false ∧
      ".." ∉ Path.parts rest := by
  cases absolute : isAbsolute base with
  | true => exact ⟨_, goes.below?_of_absolute absolute, goes.rest⟩
  | false =>
    by_cases point : ∃ others, Path.parts base = "." :: others
    · obtain ⟨others, point⟩ := point
      exact ⟨_, goes.below?_of_point absolute point, goes.rest⟩
    · rcases goes.below?_of_plain absolute (not_exists.mp point) with short | ⟨whole, forward⟩
      · exact ⟨_, short, goes.rest⟩
      · refine ⟨path, whole, goes.absolute.trans absolute, ?_⟩
        rw [goes.parts, List.mem_append, not_or]
        exact ⟨forward, goes.forward⟩

theorem GoesOn.exists_foldl (goes : GoesOn base path front tail) {names : List String}
    (areNames : ∀ name ∈ names, IsName name) :
    ∃ tail, GoesOn base (names.foldl join path) front tail := by
  induction names generalizing path tail with
  | nil => exact ⟨tail, goes⟩
  | cons name names ih =>
    obtain ⟨tail, goes⟩ := goes.join_name (areNames name List.mem_cons_self)
    exact ih goes fun other member => areNames other (List.mem_cons_of_mem _ member)

end Path

/-! ## Paths of models -/

/-- The path of a model is relative and never leads out of more than a number of the directories
above the one that it starts from. -/
def Model.StaysWithin (depth : Nat) (model : Model) : Prop :=
  Path.isAbsolute model.path.shown = false ∧
    Path.staysWithin depth (Path.parts model.path.shown) = true

instance (depth : Nat) (model : Model) : Decidable (model.StaysWithin depth) :=
  inferInstanceAs (Decidable (_ ∧ _))

theorem Model.StaysWithin.rdrop_prefix_placeOf_join {depth : Nat} {model : Model}
    (stays : model.StaysWithin depth) (tree : FileTree) (base : String) :
    (tree.placeOf base).rdrop depth <+: tree.placeOf (Path.join base model.path.shown) :=
  Path.rdrop_prefix_placeFrom_join tree.workingDirectory base stays.1 stays.2

namespace Project

variable {settings : Settings} {project : Project} {tree : FileTree}

/-- The path of a loaded model is that of a model file below the directory of the project. -/
theorem exists_file_of_load (loaded : load settings tree = .ok project) {model : Model}
    (member : model ∈ project.models.values) :
    ∃ file ∈ modelFiles settings tree,
      model.path = .text ((Path.below? settings.root file).getD file) := by
  obtain ⟨sources, read, made⟩ := load_eq_ok_iff.mp loaded
  obtain ⟨id, found⟩ := NameMap.mem_values.mp member
  obtain ⟨-, -, listed⟩ := (holds_ofSources made).file id model found
  obtain ⟨front, back, split⟩ := List.append_of_mem listed
  rw [split] at read
  obtain ⟨_, file, _, same, -, run, -⟩ := exists_split_of_forall₂ read.flip
  obtain ⟨sql, -, source⟩ := readSource_eq_ok_iff.mp run
  exact ⟨file, same ▸ List.mem_append_right _ List.mem_cons_self, (Prod.mk.inj source).1⟩

/-- If the model directories are relative and do not step back, the paths of the models stay in the
directory that they start from. -/
theorem staysWithin_of_forward (proper : tree.IsProper)
    (forward : ∀ path ∈ settings.modelPaths,
      Path.isAbsolute path = false ∧ ".." ∉ Path.parts path)
    (depth : Nat) (loaded : load settings tree = .ok project) :
    ∀ model ∈ project.models.values, model.StaysWithin depth := by
  intro model member
  obtain ⟨file, listed, same⟩ := exists_file_of_load loaded member
  obtain ⟨path, given, found⟩ := mem_modelFiles.mp listed
  obtain ⟨relative, forward⟩ := forward path given
  obtain ⟨names, areNames, rfl⟩ := proper.exists_names found
  obtain ⟨front, tail, goes⟩ := Path.exists_goesOn_join settings.root relative forward
  obtain ⟨tail, goes⟩ := goes.exists_foldl areNames
  obtain ⟨rest, below, within, onward⟩ := goes.below?
  rw [below, Option.getD_some] at same
  rw [Model.StaysWithin, same]
  exact ⟨within, Path.staysWithin_of_not_mem depth onward⟩

/-- Whether the paths of all models stay within a depth can be found out by loading them. -/
theorem staysWithin_of_check {depth : Nat}
    (check : (match load settings tree with
      | .ok project => decide (∀ model ∈ project.models.values, model.StaysWithin depth)
      | .error _ => true) = true) (loaded : load settings tree = .ok project) :
    ∀ model ∈ project.models.values, model.StaysWithin depth := by
  rw [loaded] at check
  exact of_decide_eq_true check

end Project
end SqlPipeline
