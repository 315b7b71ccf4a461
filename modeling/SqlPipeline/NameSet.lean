/-!
# Finite sets of names

A `NameSet` lists its members in ascending code-point order. The least member is the first one, so
a ready set hands out its names in a fixed order.
-/

namespace SqlPipeline

/-- A finite set of names, listed in ascending code-point order. -/
structure NameSet where
  /-- The members, ascending. -/
  toList : List String
  /-- Members ascend strictly, so none occurs twice. -/
  ascending : toList.Pairwise (· < ·)
deriving DecidableEq

namespace NameSet

/-- Add a name to an ascending list unless it is there. -/
def insertName (name : String) : List String → List String
  | [] => [name]
  | head :: tail =>
    if name < head then name :: head :: tail
    else if name = head then head :: tail
    else head :: insertName name tail

@[simp]
theorem mem_insertName {name other : String} {names : List String} :
    other ∈ insertName name names ↔ other = name ∨ other ∈ names := by
  induction names with
  | nil => simp [insertName]
  | cons head tail ih =>
    rw [insertName]
    split
    · simp
    · split
      next same => subst same; simp
      next => simp [ih]; grind

theorem pairwise_insertName (name : String) {names : List String}
    (ascending : names.Pairwise (· < ·)) : (insertName name names).Pairwise (· < ·) := by
  induction names with
  | nil => simp [insertName]
  | cons head tail ih =>
    have above := (List.pairwise_cons.mp ascending).1
    have rest := (List.pairwise_cons.mp ascending).2
    rw [insertName]
    split
    next less =>
      refine List.pairwise_cons.mpr ⟨fun other member => ?_, ascending⟩
      rcases List.mem_cons.mp member with rfl | h
      · exact less
      · exact String.lt_trans less (above other h)
    next notLess =>
      split
      next => exact ascending
      next different =>
        have less : head < name := by
          rcases String.le_total name head with h | h
          · exact absurd (String.le_antisymm h (String.not_lt.mp notLess)) different
          · exact String.not_le.mp fun h' => different (String.le_antisymm h' h)
        refine List.pairwise_cons.mpr ⟨fun other member => ?_, ih rest⟩
        rcases mem_insertName.mp member with rfl | h
        · exact less
        · exact above other h

/-- The set without members. -/
def empty : NameSet := ⟨[], List.Pairwise.nil⟩

instance : EmptyCollection NameSet := ⟨empty⟩

instance : Inhabited NameSet := ⟨empty⟩

instance : Membership String NameSet := ⟨fun set name => name ∈ set.toList⟩

instance (name : String) (set : NameSet) : Decidable (name ∈ set) :=
  inferInstanceAs (Decidable (name ∈ set.toList))

/-- Whether a name is a member. -/
def contains (set : NameSet) (name : String) : Bool := decide (name ∈ set)

/-- Add a name. -/
def insert (set : NameSet) (name : String) : NameSet :=
  ⟨insertName name set.toList, pairwise_insertName name set.ascending⟩

/-- Remove a name. -/
def erase (set : NameSet) (name : String) : NameSet :=
  ⟨set.toList.filter (· ≠ name), set.ascending.sublist List.filter_sublist⟩

/-- The members that satisfy a test. -/
def filter (p : String → Bool) (set : NameSet) : NameSet :=
  ⟨set.toList.filter p, set.ascending.sublist List.filter_sublist⟩

/-- The number of members. -/
def size (set : NameSet) : Nat := set.toList.length

/-- Whether there is no member. -/
def isEmpty (set : NameSet) : Bool := set.toList.isEmpty

/-- The set of the names of a list. -/
def ofList (names : List String) : NameSet := names.foldl insert empty

/-- The members of either set. -/
def union (first second : NameSet) : NameSet := second.toList.foldl insert first

/-- The members of `first` that are not in `second`. -/
def diff (first second : NameSet) : NameSet := first.filter fun name => !second.contains name

/-- The least member and the set without it. -/
def popLeast? (set : NameSet) : Option (String × NameSet) :=
  match set with
  | ⟨[], _⟩ => none
  | ⟨least :: rest, ascending⟩ => some (least, ⟨rest, (List.pairwise_cons.mp ascending).2⟩)

@[simp]
theorem mem_insert {set : NameSet} {name other : String} :
    other ∈ set.insert name ↔ other = name ∨ other ∈ set :=
  mem_insertName

@[simp]
theorem mem_erase {set : NameSet} {name other : String} :
    other ∈ set.erase name ↔ other ∈ set ∧ other ≠ name := by
  show other ∈ set.toList.filter (· ≠ name) ↔ _
  simp only [List.mem_filter, decide_eq_true_eq]
  exact Iff.rfl

@[simp]
theorem mem_empty {name : String} : name ∈ empty ↔ False := by
  show name ∈ ([] : List String) ↔ False
  simp

@[simp]
theorem mem_toList {set : NameSet} {name : String} : name ∈ set.toList ↔ name ∈ set := Iff.rfl

@[simp]
theorem mem_filter {set : NameSet} {p : String → Bool} {name : String} :
    name ∈ set.filter p ↔ name ∈ set ∧ p name = true :=
  List.mem_filter

@[simp]
theorem contains_iff {set : NameSet} {name : String} : set.contains name = true ↔ name ∈ set :=
  decide_eq_true_iff

theorem mem_foldl_insert {set : NameSet} {names : List String} {name : String} :
    name ∈ names.foldl insert set ↔ name ∈ set ∨ name ∈ names := by
  induction names generalizing set with
  | nil => simp
  | cons head tail ih =>
    rw [List.foldl_cons, ih, mem_insert, List.mem_cons, or_assoc, or_left_comm]

@[simp]
theorem mem_ofList {names : List String} {name : String} : name ∈ ofList names ↔ name ∈ names := by
  rw [ofList, mem_foldl_insert, mem_empty, false_or]

@[simp]
theorem mem_union {first second : NameSet} {name : String} :
    name ∈ first.union second ↔ name ∈ first ∨ name ∈ second :=
  mem_foldl_insert

@[simp]
theorem mem_diff {first second : NameSet} {name : String} :
    name ∈ first.diff second ↔ name ∈ first ∧ name ∉ second := by
  rw [diff, mem_filter, Bool.not_eq_true', ← Bool.not_eq_true, contains_iff]

theorem isEmpty_iff {set : NameSet} : set.isEmpty = true ↔ ∀ name, name ∉ set := by
  rw [isEmpty, List.isEmpty_iff, List.eq_nil_iff_forall_not_mem]
  rfl

theorem nodup_toList (set : NameSet) : set.toList.Nodup := by
  refine set.ascending.imp ?_
  rintro first second less rfl
  exact String.lt_irrefl _ less

/-- Sets with the same members are equal. -/
theorem ext_mem {first second : NameSet} (same : ∀ name, name ∈ first ↔ name ∈ second) :
    first = second := by
  have perm : first.toList.Perm second.toList :=
    (List.perm_ext_iff_of_nodup first.nodup_toList second.nodup_toList).mpr same
  have equal : first.toList = second.toList := by
    refine perm.eq_of_pairwise (fun a b _ _ less greater => ?_) first.ascending second.ascending
    exact absurd (String.lt_trans less greater) (String.lt_irrefl _)
  obtain ⟨names, ascending⟩ := first
  subst equal
  rfl

theorem popLeast?_eq_none_iff {set : NameSet} :
    set.popLeast? = none ↔ ∀ name, name ∉ set := by
  obtain ⟨names, ascending⟩ := set
  cases names with
  | nil => exact ⟨fun _ name => List.not_mem_nil, fun _ => rfl⟩
  | cons least rest =>
    refine ⟨fun absent => ?_, fun absent => absurd List.mem_cons_self (absent least)⟩
    cases absent

/-- The least member is below all members, and the rest are the other ones. -/
theorem popLeast?_eq_some {set rest : NameSet} {least : String}
    (popped : set.popLeast? = some (least, rest)) :
    least ∈ set ∧ (∀ name ∈ set, least ≤ name) ∧
      ∀ name, name ∈ rest ↔ name ∈ set ∧ name ≠ least := by
  obtain ⟨names, ascending⟩ := set
  cases names with
  | nil => cases popped
  | cons head tail =>
    cases popped
    have above := (List.pairwise_cons.mp ascending).1
    refine ⟨List.mem_cons_self, fun name member => ?_, fun name => ?_⟩
    · rcases List.mem_cons.mp member with rfl | later
      · exact String.le_refl name
      · exact String.not_lt.mp fun less => String.lt_irrefl _ (String.lt_trans less (above _ later))
    · constructor
      · intro later
        refine ⟨List.mem_cons_of_mem _ later, ?_⟩
        rintro rfl
        exact String.lt_irrefl _ (above _ later)
      · rintro ⟨member, different⟩
        exact (List.mem_cons.mp member).resolve_left different

end NameSet

end SqlPipeline
