import Mathlib.Data.List.DropRight
import SqlPipeline.Files.Tree

/-!
# Where paths lead

Joining a relative path to a base goes on from the place of the base.  A path that never leaves more
directories than it has entered stays below its start, and the extension of a path is that of the
last name of its place.
-/

namespace SqlPipeline.Path

variable {base path name part : String} {directory place : Place} {names : List String}

/-! ## Parts -/

/-- A name that a file can have. -/
structure IsName (name : String) : Prop where
  meaningful : isTrivial name = false
  inside : name ≠ ".."
  single : '/' ∉ name.toList

instance (name : String) : Decidable (IsName name) :=
  decidable_of_iff (isTrivial name = false ∧ name ≠ ".." ∧ '/' ∉ name.toList)
    ⟨fun ⟨meaningful, inside, single⟩ => ⟨meaningful, inside, single⟩,
      fun ⟨meaningful, inside, single⟩ => ⟨meaningful, inside, single⟩⟩

theorem enter_of_trivial (place : Place) (trivial : isTrivial part = true) :
    enter place part = place := by
  rw [enter, if_pos trivial]

theorem enter_parent (place : Place) : enter place ".." = place.dropLast := rfl

theorem enter_of_meaningful (place : Place) (meaningful : isTrivial part = false)
    (inside : part ≠ "..") : enter place part = place ++ [part] := by
  rw [enter, if_neg (by simp [meaningful]), if_neg inside]

theorem foldl_enter_of_trivial (place : Place) {parts : List String}
    (trivial : ∀ part ∈ parts, isTrivial part = true) : parts.foldl enter place = place := by
  induction parts with
  | nil => rfl
  | cons part parts ih =>
    rw [List.foldl_cons, enter_of_trivial place (trivial part List.mem_cons_self)]
    exact ih fun other member => trivial other (List.mem_cons_of_mem _ member)

theorem parts_empty : parts "" = [""] := rfl

theorem parts_ne_nil (path : String) : parts path ≠ [] := by
  rw [parts, ne_eq, List.map_eq_nil_iff]
  exact Text.splitOnChar_ne_nil _ _

theorem parts_append_slash (front back : String) :
    parts (front ++ "/" ++ back) = parts front ++ parts back := by
  have split := Text.splitOnChar_append_separator '/' front.toList back.toList
  have text : (front ++ "/" ++ back).toList = front.toList ++ '/' :: back.toList := by
    simp [String.toList_append]
  rw [parts, text, split, List.map_append]
  rfl

theorem not_mem_of_mem_parts (member : part ∈ parts path) : '/' ∉ part.toList := by
  obtain ⟨letters, within, rfl⟩ := List.mem_map.mp member
  rw [String.toList_ofList]
  exact Text.not_mem_of_mem_splitOnChar within

theorem IsName.parts_eq (isName : IsName name) : parts name = [name] := by
  rw [parts, Text.splitOnChar_of_not_mem isName.single, List.map_singleton, String.ofList_toList]

theorem IsName.relative (isName : IsName name) : isAbsolute name = false := by
  rw [isAbsolute, beq_eq_false_iff_ne]
  exact fun head => isName.single (List.mem_of_mem_head? head)

/-! ## Joined paths -/

/-- A text that ends with a slash has one before it. -/
theorem exists_of_getLast?_slash (slash : base.toList.getLast? = some '/') :
    ∃ front, base = front ++ "/" := by
  obtain ⟨letters, same⟩ := List.getLast?_eq_some_iff.mp slash
  refine ⟨String.ofList letters, String.toList_inj.mp ?_⟩
  rw [same, String.toList_append, String.toList_ofList]
  rfl

theorem isAbsolute_append (nonempty : base ≠ "") (rest : String) :
    isAbsolute (base ++ rest) = isAbsolute base := by
  have some : base.toList ≠ [] := fun empty => nonempty (String.toList_eq_nil_iff.mp empty)
  rw [isAbsolute, isAbsolute, String.toList_append, List.head?_append_of_ne_nil _ some]

/-- Joining puts the parts of a relative path after those of the base, of which an empty last one is
dropped. -/
theorem exists_parts_join (base : String) (relative : isAbsolute path = false) :
    isAbsolute (join base path) = isAbsolute base ∧ ∃ front,
      parts (join base path) = front ++ parts path ∧
      (parts base = front ∨ parts base = front ++ [""]) := by
  by_cases empty : base = ""
  · subst empty
    have joined : join "" path = path := by
      rw [join]
      simp
    rw [joined]
    exact ⟨relative, [], rfl, .inr rfl⟩
  have some : base.isEmpty = false := by simpa using empty
  rw [join, relative, some, Bool.or_false, if_neg Bool.false_ne_true]
  split
  next slash =>
    obtain ⟨front, rfl⟩ := exists_of_getLast?_slash (beq_iff_eq.mp slash)
    have ending := parts_append_slash front ""
    rw [String.append_empty, parts_empty] at ending
    exact ⟨isAbsolute_append empty path, parts front, parts_append_slash front path, .inr ending⟩
  next =>
    refine ⟨?_, parts base, parts_append_slash base path, .inl rfl⟩
    rw [String.append_assoc]
    exact isAbsolute_append empty _

/-- A relative path goes on from the place of the base. -/
theorem placeFrom_join (directory : Place) (base : String) (relative : isAbsolute path = false) :
    placeFrom directory (join base path) = (parts path).foldl enter (placeFrom directory base) := by
  obtain ⟨absolute, front, joined, own | own⟩ := exists_parts_join base relative
  · rw [placeFrom, absolute, joined, List.foldl_append, placeFrom, own]
  · rw [placeFrom, absolute, joined, List.foldl_append, placeFrom, own, List.foldl_append]
    rfl

theorem placeFrom_join_name (directory : Place) (base : String) (isName : IsName name) :
    placeFrom directory (join base name) = placeFrom directory base ++ [name] := by
  rw [placeFrom_join directory base isName.relative, isName.parts_eq, List.foldl_cons,
    enter_of_meaningful _ isName.meaningful isName.inside, List.foldl_nil]

theorem placeFrom_foldl_join (directory : Place) (path : String)
    (areNames : ∀ name ∈ names, IsName name) :
    placeFrom directory (names.foldl join path) = placeFrom directory path ++ names := by
  induction names generalizing path with
  | nil => rw [List.foldl_nil, List.append_nil]
  | cons name names ih =>
    rw [List.foldl_cons, ih (join path name) fun other member =>
        areNames other (List.mem_cons_of_mem _ member),
      placeFrom_join_name directory path (areNames name List.mem_cons_self), List.append_assoc]
    rfl

/-- The places of paths have names only. -/
theorem isName_of_mem_placeFrom (areNames : ∀ name ∈ directory, IsName name) (path : String) :
    ∀ name ∈ placeFrom directory path, IsName name := by
  have step (parts : List String) (single : ∀ part ∈ parts, '/' ∉ part.toList) (place : Place)
      (kept : ∀ name ∈ place, IsName name) : ∀ name ∈ parts.foldl enter place, IsName name := by
    induction parts generalizing place with
    | nil => exact kept
    | cons part parts ih =>
      refine ih (fun other member => single other (List.mem_cons_of_mem _ member)) _ ?_
      intro name member
      rw [enter] at member
      split at member
      · exact kept name member
      next meaningful =>
        split at member
        · exact kept name ((List.dropLast_sublist place).subset member)
        next inside =>
          rcases List.mem_append.mp member with earlier | last
          · exact kept name earlier
          · obtain rfl := List.mem_singleton.mp last
            exact ⟨by simpa using meaningful, inside, single name List.mem_cons_self⟩
  refine step (parts path) (fun part => not_mem_of_mem_parts) _ ?_
  split
  · exact fun name member => absurd member List.not_mem_nil
  · exact areNames

/-! ## Paths that stay inside -/

/-- Whether parts never lead out of more directories than a number and those that they have led
into. -/
def staysWithin : Nat → List String → Bool
  | _, [] => true
  | depth, part :: parts =>
    if isTrivial part then staysWithin depth parts
    else if part = ".." then depth ≠ 0 && staysWithin (depth - 1) parts
    else staysWithin (depth + 1) parts

/-- Parts lead out of no more directories than they stay within. -/
theorem rdrop_prefix_foldl_enter (place : Place) {depth : Nat} {parts : List String}
    (stays : staysWithin depth parts = true) : place.rdrop depth <+: parts.foldl enter place := by
  induction parts generalizing depth place with
  | nil => exact List.take_prefix _ place
  | cons part parts ih =>
    rw [staysWithin] at stays
    rw [List.foldl_cons, enter]
    split at stays
    next trivial =>
      rw [if_pos trivial]
      exact ih place stays
    next meaningful =>
      rw [if_neg meaningful]
      split at stays
      next back =>
        obtain ⟨some, stays⟩ := Bool.and_eq_true_iff.mp stays
        have positive : 0 < depth := Nat.pos_of_ne_zero (by simpa using some)
        have shorter : place.dropLast.rdrop (depth - 1) = place.rdrop depth := by
          rw [List.rdrop, List.rdrop, List.dropLast_eq_take, List.take_take, List.length_take]
          congr 1
          omega
        rw [if_pos back, ← shorter]
        exact ih place.dropLast stays
      next inside =>
        rw [if_neg inside, ← List.rdrop_concat_succ place depth part]
        exact ih (place ++ [part]) stays

/-- A relative path that is joined to a base stays in the directory that is so many levels above
it. -/
theorem rdrop_prefix_placeFrom_join (directory : Place) (base : String) {depth : Nat}
    (relative : isAbsolute path = false) (stays : staysWithin depth (parts path) = true) :
    (placeFrom directory base).rdrop depth <+: placeFrom directory (join base path) := by
  rw [placeFrom_join directory base relative]
  exact rdrop_prefix_foldl_enter _ stays

/-! ## Extensions -/

/-- Trimming drops trivial parts, and what it leaves does not start with an empty one. -/
theorem trimParts_spec (absolute : Bool) (parts : List String) :
    (∃ dropped, (∀ part ∈ dropped, isTrivial part = true) ∧
      parts = dropped ++ trimParts absolute parts) ∧
    ∀ part others, trimParts absolute parts = part :: others →
      isTrivial part = false ∨ part = "." := by
  fun_induction trimParts absolute parts with
  | case1 => exact ⟨⟨[], by simp, rfl⟩, by simp⟩
  | case2 absolute => exact ⟨⟨["."], by decide, rfl⟩, by simp⟩
  | case3 => exact ⟨⟨[], by simp, rfl⟩, by simp⟩
  | case4 part others _ trivial ih =>
    obtain ⟨⟨dropped, meaningless, split⟩, starts⟩ := ih
    refine ⟨⟨part :: dropped, ?_, congrArg (part :: ·) split⟩, starts⟩
    intro other member
    rcases List.mem_cons.mp member with rfl | later
    · exact trivial
    · exact meaningless other later
  | case5 part others _ meaningful =>
    refine ⟨⟨[], by simp, rfl⟩, fun first rest same => .inl ?_⟩
    obtain ⟨rfl, rfl⟩ := List.cons.inj same
    simpa using meaningful

/-- The file name of a path is the last name of its place. -/
theorem exists_placeFrom_eq (directory : Place) (found : fileName? path = some name) :
    ∃ front, placeFrom directory path = front ++ [name] := by
  have last : ∃ others, reversedParts path = name :: others ∧ name ≠ "." ∧ name ≠ ".." := by
    rw [fileName?] at found
    split at found
    · cases found
    next first others reversed =>
      split at found
      · cases found
      next named =>
        cases found
        simp only [Bool.or_eq_true, beq_iff_eq, not_or] at named
        exact ⟨others, reversed, named⟩
  obtain ⟨others, reversed, pointless, inside⟩ := last
  rw [reversedParts] at reversed
  obtain ⟨⟨dropped, trivial, split⟩, starts⟩ := trimParts_spec (isAbsolute path)
    (if isAbsolute path then (parts path).tail else parts path).reverse
  have meaningful := (starts name others reversed).resolve_right pointless
  -- Only an absolute path has a first part that the reversed ones leave out.
  have whole : ∃ front, parts path = front ++ name :: dropped.reverse := by
    rw [reversed] at split
    have back := congrArg List.reverse split
    rw [List.reverse_reverse, List.reverse_append, List.reverse_cons, List.append_assoc,
      List.singleton_append] at back
    cases all : parts path with
    | nil => exact absurd all (parts_ne_nil path)
    | cons first rest =>
      split at back
      · refine ⟨first :: others.reverse, ?_⟩
        rw [all, List.tail_cons] at back
        rw [back, List.cons_append]
      · exact ⟨others.reverse, all.symm.trans back⟩
  obtain ⟨front, whole⟩ := whole
  refine ⟨front.foldl enter (if isAbsolute path then [] else directory), ?_⟩
  rw [placeFrom, whole, List.foldl_append, List.foldl_cons, enter_of_meaningful _ meaningful inside]
  exact foldl_enter_of_trivial _ fun part member => trivial part (List.mem_reverse.mp member)

/-- The extension of the last name of a place. -/
def extensionAt? (place : Place) : Option String :=
  place.getLast?.bind fun name => (splitName name).2

/-- The extension of a path is that of its place. -/
theorem extensionAt?_placeFrom (directory : Place) {extension : String}
    (found : extension? path = some extension) :
    extensionAt? (placeFrom directory path) = some extension := by
  obtain ⟨name, file, own⟩ := Option.bind_eq_some_iff.mp found
  obtain ⟨front, leads⟩ := exists_placeFrom_eq directory file
  rw [extensionAt?, leads, List.getLast?_concat]
  exact own

end SqlPipeline.Path
