import SqlPipeline.Proofs.Files.Resolution

/-!
# What writing leaves alone

A tree is written to by replacing files at places of a region and by making directories where
nothing is.  Everything else stays: directories are never removed, files outside the region keep
their content, and so does what discovery finds in a directory that the region has no business in.
-/

namespace SqlPipeline.FileTree

variable {region wider : Place → Prop} {before middle after tree : FileTree}
  {path content : String} {place other : Place} {entry : FileEntry}

theorem lookup_filter_ne (entries : List (Place × FileEntry)) (different : other ≠ place) :
    (entries.filter (·.1 ≠ place)).lookup other = entries.lookup other := by
  induction entries with
  | nil => rfl
  | cons entry entries ih =>
    by_cases same : entry.1 = place
    · have apart : (other == entry.1) = false := by simpa [same] using different
      rw [List.filter_cons_of_neg (by simpa using same), ih, List.lookup_cons, apart]
    · rw [List.filter_cons_of_pos (by simpa using same), List.lookup_cons, List.lookup_cons, ih]

theorem entry?_put (tree : FileTree) (nonempty : place ≠ []) (entry : FileEntry) (other : Place) :
    FileTree.entry? (tree.put place entry) other =
      if other = place then some entry else tree.entry? other := by
  by_cases root : other = []
  · subst root
    rw [if_neg (Ne.symm nonempty)]
    rfl
  · have meaningful : ¬other.isEmpty = true := by simpa using root
    rw [FileTree.entry?, FileTree.entry?, if_neg meaningful, if_neg meaningful, put]
    dsimp only
    by_cases same : other = place
    · rw [if_pos same, same, List.lookup_cons_self]
    · rw [if_neg same, List.lookup_cons, beq_eq_false_iff_ne.mpr same]
      exact lookup_filter_ne tree.entries same

/-- Texts are written at places of a region, and directories are made where nothing is. -/
inductive Written (region : Place → Prop) (before : FileTree) : FileTree → Prop
  | refl : Written region before before
  /-- A file takes the place of a file or of nothing. -/
  | text {middle : FileTree} {place : Place} (content : String)
      (written : Written region before middle) (within : region place)
      (file : middle.entry? place ≠ some .directory) :
      Written region before (middle.put place (.text content))
  | directory {middle : FileTree} {place : Place} (written : Written region before middle)
      (absent : middle.entry? place = none) :
      Written region before (middle.put place .directory)

namespace Written

theorem trans (first : Written region before middle) (second : Written region middle after) :
    Written region before after := by
  induction second with
  | refl => exact first
  | text content _ within file ih => exact .text content ih within file
  | directory _ absent ih => exact .directory ih absent

theorem mono (written : Written region before after)
    (within : ∀ place, region place → wider place) : Written wider before after := by
  induction written with
  | refl => exact .refl
  | text content _ inside file ih => exact .text content ih (within _ inside) file
  | directory _ absent ih => exact .directory ih absent

theorem workingDirectory (written : Written region before after) :
    after.workingDirectory = before.workingDirectory := by
  induction written with
  | refl => rfl
  | text _ _ _ _ ih => exact ih
  | directory _ _ ih => exact ih

theorem placeOf (written : Written region before after) (path : String) :
    after.placeOf path = before.placeOf path := by
  rw [FileTree.placeOf, written.workingDirectory, FileTree.placeOf]

/-- What is at a place stays, unless nothing was there and now a directory is, or the place belongs
to the region and now holds a text where no directory was. -/
theorem entry? (written : Written region before after) (place : Place) :
    after.entry? place = before.entry? place ∨
      (before.entry? place = none ∧ after.entry? place = some .directory) ∨
      (region place ∧ before.entry? place ≠ some .directory ∧
        ∃ content, after.entry? place = some (.text content)) := by
  induction written with
  | refl => exact .inl rfl
  | @text middle target content _ within file ih =>
    have nonempty : target ≠ [] := by
      rintro rfl
      exact file middle.entry?_nil
    rw [entry?_put middle nonempty]
    split
    next same =>
      subst same
      refine .inr (.inr ⟨within, fun directory => ?_, content, rfl⟩)
      rcases ih with kept | ⟨absent, -⟩ | ⟨-, no, -⟩
      · exact file (kept.trans directory)
      · cases absent.symm.trans directory
      · exact no directory
    next => exact ih
  | @directory middle target _ absent ih =>
    have nonempty : target ≠ [] := by
      rintro rfl
      cases absent
    rw [entry?_put middle nonempty]
    split
    next same =>
      subst same
      refine .inr (.inl ⟨?_, rfl⟩)
      rcases ih with kept | ⟨-, made⟩ | ⟨-, -, content, made⟩
      · exact kept.symm.trans absent
      · cases absent.symm.trans made
      · cases absent.symm.trans made
    next => exact ih

theorem directory_stays (written : Written region before after)
    (directory : before.entry? place = some .directory) :
    after.entry? place = some .directory := by
  rcases written.entry? place with kept | ⟨absent, -⟩ | ⟨-, no, -⟩
  · exact kept.trans directory
  · cases absent.symm.trans directory
  · exact absurd directory no

/-- What is a directory now was one before, if anything was there. -/
theorem directory_before (written : Written region before after)
    (directory : after.entry? place = some .directory) (present : before.entry? place ≠ none) :
    before.entry? place = some .directory := by
  rcases written.entry? place with kept | ⟨absent, -⟩ | ⟨-, -, content, made⟩
  · exact kept.symm.trans directory
  · exact absurd absent present
  · cases made.symm.trans directory

theorem entry?_of_outside (written : Written region before after) (outside : ¬region place)
    (there : before.entry? place = some entry) : after.entry? place = some entry := by
  rcases written.entry? place with kept | ⟨absent, -⟩ | ⟨within, -, -⟩
  · exact kept.trans there
  · cases absent.symm.trans there
  · exact absurd within outside

/-- Every entry was there before, is a directory or lies in the region. -/
theorem mem_entries (written : Written region before after) {entry : Place × FileEntry}
    (member : entry ∈ after.entries) :
    entry ∈ before.entries ∨ entry.2 = .directory ∨ region entry.1 := by
  induction written with
  | refl => exact .inl member
  | text _ _ within _ ih =>
    rcases List.mem_cons.mp member with rfl | earlier
    · exact .inr (.inr within)
    · exact ih (List.mem_filter.mp earlier).1
  | directory _ _ ih =>
    rcases List.mem_cons.mp member with rfl | earlier
    · exact .inr (.inl rfl)
    · exact ih (List.mem_filter.mp earlier).1

theorem filterMap_filter_ne {β : Type} {read : Place × FileEntry → Option β}
    (entries : List (Place × FileEntry))
    (nothing : ∀ entry ∈ entries, entry.1 = place → read entry = none) :
    (entries.filter (·.1 ≠ place)).filterMap read = entries.filterMap read := by
  induction entries with
  | nil => rfl
  | cons entry entries ih =>
    have rest := ih fun other member => nothing other (List.mem_cons_of_mem _ member)
    by_cases same : entry.1 = place
    · rw [List.filter_cons_of_neg (by simpa using same), rest,
        List.filterMap_cons_none (nothing entry List.mem_cons_self same)]
    · rw [List.filter_cons_of_pos (by simpa using same), List.filterMap_cons, List.filterMap_cons,
        rest]

/-- What is read off the entries stays, if directories and the region give nothing. -/
theorem filterMap_entries {β : Type} {read : Place × FileEntry → Option β}
    (written : Written region before after)
    (nothing : ∀ place entry, region place → read (place, entry) = none)
    (directories : ∀ place, read (place, .directory) = none) :
    after.entries.filterMap read = before.entries.filterMap read := by
  induction written with
  | refl => rfl
  | @text middle target content _ within _ ih =>
    rw [put, List.filterMap_cons_none (nothing target _ within), filterMap_filter_ne, ih]
    rintro ⟨_, entry⟩ - rfl
    exact nothing _ entry within
  | @directory middle target _ absent ih =>
    rw [put, List.filterMap_cons_none (directories target), filterMap_filter_ne, ih]
    rintro ⟨_, entry⟩ member rfl
    exact absurd absent (entry?_ne_none_of_mem member)

theorem passes (written : Written region before after) {steps : List String}
    (passes : before.Passes place steps) : after.Passes place steps := by
  induction steps generalizing place with
  | nil => exact trivial
  | cons step steps ih => exact ⟨written.directory_stays passes.1, ih passes.2⟩

theorem reaches (written : Written region before after) (reaches : before.Reaches path) :
    after.Reaches path := by
  refine ⟨reaches.1, ?_⟩
  rw [startOf, written.workingDirectory]
  exact written.passes reaches.2

/-- A file outside the region keeps its content. -/
theorem read (written : Written region before after) (run : before.read path = .ok content)
    (outside : ¬region (before.placeOf path)) : after.read path = .ok content := by
  obtain ⟨reaches, there⟩ := read_eq_ok_iff.mp run
  refine read_eq_ok_iff.mpr ⟨written.reaches reaches, ?_⟩
  rw [written.placeOf]
  exact written.entry?_of_outside outside there

/-- A file that is written after other changes, at a place of the region. -/
theorem write (written : Written region before middle)
    (run : middle.write path content = .ok after) (within : region (before.placeOf path)) :
    Written region before after := by
  obtain ⟨⟨place, present⟩, resolved, run⟩ := bind_eq_ok_iff.mp run
  obtain ⟨-, rfl, -⟩ := resolve_eq_ok resolved
  rw [written.placeOf] at run
  dsimp only at run
  split at run
  · cases run
  next file =>
    cases run
    exact .text content written within file

end Written

/-- What was written to a file is read from it. -/
theorem read_write (run : tree.write path content = .ok after) : after.read path = .ok content := by
  obtain ⟨⟨place, present⟩, resolved, put⟩ := bind_eq_ok_iff.mp run
  obtain ⟨reaches, rfl, -⟩ := resolve_eq_ok resolved
  dsimp only at put
  split at put
  · cases put
  next file =>
    cases put
    have written : Written (fun _ => True) tree (tree.put (tree.placeOf path) (.text content)) :=
      .text content .refl trivial file
    have nonempty : tree.placeOf path ≠ [] := by
      intro root
      rw [root] at file
      exact file (entry?_nil tree)
    refine read_eq_ok_iff.mpr ⟨written.reaches reaches, ?_⟩
    rw [written.placeOf, entry?_put tree nonempty, if_pos rfl]

/-! ## Directories -/

theorem written_of_createDirectory (region : Place → Prop)
    (run : tree.createDirectory path = .ok after) : Written region tree after := by
  obtain ⟨⟨place, present⟩, resolved, run⟩ := bind_eq_ok_iff.mp run
  obtain ⟨-, -, absent⟩ := resolve_eq_ok resolved
  dsimp only at run
  split at run
  · cases run
  next missing =>
    cases run
    exact .directory .refl (absent (by simpa using missing))

theorem written_of_createDirectoriesWithin (region : Place → Prop) (fuel : Nat)
    (run : createDirectoriesWithin fuel tree path = .ok after) : Written region tree after := by
  induction fuel generalizing path after with
  | zero => cases run
  | succ fuel ih =>
    rw [createDirectoriesWithin] at run
    split at run
    · cases run
      exact .refl
    · split at run
      next made =>
        cases run
        exact written_of_createDirectory region made
      next =>
        split at run
        · cases run
        next parent _ =>
          obtain ⟨middle, parents, run⟩ := bind_eq_ok_iff.mp run
          have above := ih parents
          split at run
          next made =>
            cases run
            exact above.trans (written_of_createDirectory region made)
          next =>
            split at run <;> cases run
            exact above
      next =>
        split at run <;> cases run
        exact .refl

theorem written_of_createDirectories (region : Place → Prop)
    (run : tree.createDirectories path = .ok after) : Written region tree after :=
  written_of_createDirectoriesWithin region _ run

/-- A file that is written after the directories that it needs have been made. -/
theorem Written.writeInDirectory (written : Written region before middle) {made : FileTree}
    {directory : String} (parents : middle.createDirectories directory = .ok made)
    (run : made.write path content = .ok after) (within : region (before.placeOf path)) :
    Written region before after :=
  (written.trans (written_of_createDirectories region parents)).write run within

end SqlPipeline.FileTree
