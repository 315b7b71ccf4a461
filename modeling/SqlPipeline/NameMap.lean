/-!
# Finite maps from names

A `NameMap` lists its entries in ascending code-point order of their keys, which is the order in
which models, nodes and settings are reported. The order is part of the type, so two maps with the
same lookups are equal (`NameMap.ext_get?`).
-/

namespace SqlPipeline

/-- A finite map from names, listed in ascending code-point order. -/
structure NameMap (α : Type) where
  /-- The entries, ascending by key. -/
  entries : List (String × α)
  /-- Keys ascend strictly, so no key occurs twice. -/
  ascending : entries.Pairwise (fun first second => first.1 < second.1)
deriving DecidableEq

namespace NameMap

variable {α β : Type}

/-- Put a value at a key of an ascending list, replacing an earlier value of that key. -/
def insertEntry (key : String) (value : α) : List (String × α) → List (String × α)
  | [] => [(key, value)]
  | head :: tail =>
    if key < head.1 then (key, value) :: head :: tail
    else if key = head.1 then (key, value) :: tail
    else head :: insertEntry key value tail

theorem mem_insertEntry {key : String} {value : α} {entry : String × α}
    {entries : List (String × α)} (member : entry ∈ insertEntry key value entries) :
    entry = (key, value) ∨ entry ∈ entries := by
  induction entries with
  | nil => simpa [insertEntry] using member
  | cons head tail ih =>
    rw [insertEntry] at member
    split at member
    · simpa using member
    · split at member
      · rcases List.mem_cons.mp member with h | h
        · exact .inl h
        · exact .inr (List.mem_cons_of_mem _ h)
      · rcases List.mem_cons.mp member with h | h
        · exact .inr (h ▸ List.mem_cons_self)
        · exact (ih h).imp_right (List.mem_cons_of_mem _)

theorem pairwise_insertEntry (key : String) (value : α) {entries : List (String × α)}
    (ascending : entries.Pairwise (fun first second => first.1 < second.1)) :
    (insertEntry key value entries).Pairwise (fun first second => first.1 < second.1) := by
  induction entries with
  | nil => simp [insertEntry]
  | cons head tail ih =>
    have above := (List.pairwise_cons.mp ascending).1
    have rest := (List.pairwise_cons.mp ascending).2
    rw [insertEntry]
    split
    next less =>
      refine List.pairwise_cons.mpr ⟨fun entry member => ?_, ascending⟩
      rcases List.mem_cons.mp member with rfl | h
      · exact less
      · exact String.lt_trans less (above entry h)
    next notLess =>
      split
      next same => exact List.pairwise_cons.mpr ⟨fun entry h => same ▸ above entry h, rest⟩
      next different =>
        have less : head.1 < key := by
          rcases String.le_total key head.1 with h | h
          · exact absurd (String.le_antisymm h (String.not_lt.mp notLess)) different
          · exact String.not_le.mp fun h' => different (String.le_antisymm h' h)
        refine List.pairwise_cons.mpr ⟨fun entry member => ?_, ih rest⟩
        rcases mem_insertEntry member with rfl | h
        · exact less
        · exact above entry h

/-- The map without entries. -/
def empty : NameMap α := ⟨[], List.Pairwise.nil⟩

instance : EmptyCollection (NameMap α) := ⟨empty⟩

instance : Inhabited (NameMap α) := ⟨empty⟩

/-- The value at a key. -/
def get? (map : NameMap α) (key : String) : Option α := map.entries.lookup key

/-- Whether a key has a value. -/
def contains (map : NameMap α) (key : String) : Bool := (map.get? key).isSome

/-- Put a value at a key, replacing an earlier one. -/
def insert (map : NameMap α) (key : String) (value : α) : NameMap α :=
  ⟨insertEntry key value map.entries, pairwise_insertEntry key value map.ascending⟩

/-- Remove a key. -/
def erase (map : NameMap α) (key : String) : NameMap α :=
  ⟨map.entries.filter (·.1 ≠ key), map.ascending.sublist List.filter_sublist⟩

/-- The keys in ascending order. -/
def keys (map : NameMap α) : List String := map.entries.map (·.1)

/-- The values in ascending order of their keys. -/
def values (map : NameMap α) : List α := map.entries.map (·.2)

/-- The number of keys. -/
def size (map : NameMap α) : Nat := map.entries.length

/-- Whether there is no entry. -/
def isEmpty (map : NameMap α) : Bool := map.entries.isEmpty

/-- Apply a function to every value. -/
def mapValues (f : String → α → β) (map : NameMap α) : NameMap β :=
  ⟨map.entries.map fun entry => (entry.1, f entry.1 entry.2),
    List.pairwise_map.mpr map.ascending⟩

/-- The map of a list of entries, where a later entry replaces an earlier one of its key. -/
def ofList (entries : List (String × α)) : NameMap α :=
  entries.foldl (fun map entry => map.insert entry.1 entry.2) empty

/-- Insert all entries of `second` into `first`. -/
def union (first second : NameMap α) : NameMap α :=
  second.entries.foldl (fun map entry => map.insert entry.1 entry.2) first

/-- Replace the value at a key by a function of the value there, `none` if there is none. -/
def update (map : NameMap α) (key : String) (f : Option α → α) : NameMap α :=
  map.insert key (f (map.get? key))

theorem lookup_insertEntry_self (key : String) (value : α) (entries : List (String × α)) :
    (insertEntry key value entries).lookup key = some value := by
  induction entries with
  | nil => simp [insertEntry]
  | cons head tail ih =>
    rw [insertEntry]
    split
    · simp
    · split
      · simp
      next different =>
        rw [List.lookup_cons, beq_eq_false_iff_ne.mpr different]
        exact ih

theorem lookup_insertEntry_of_ne {key other : String} (value : α) (different : other ≠ key)
    (entries : List (String × α)) :
    (insertEntry key value entries).lookup other = entries.lookup other := by
  have absent := beq_eq_false_iff_ne.mpr different
  induction entries with
  | nil => simp only [insertEntry, List.lookup_cons, absent]
  | cons head tail ih =>
    rw [insertEntry]
    split
    · simp only [List.lookup_cons, absent]
    · split
      next same =>
        rw [List.lookup_cons, absent, List.lookup_cons, ← same, absent]
      next => rw [List.lookup_cons, List.lookup_cons, ih]

@[simp]
theorem get?_empty (key : String) : (empty : NameMap α).get? key = none := rfl

@[simp]
theorem get?_insert_self (map : NameMap α) (key : String) (value : α) :
    (map.insert key value).get? key = some value :=
  lookup_insertEntry_self key value map.entries

theorem get?_insert_of_ne (map : NameMap α) {key other : String} (value : α)
    (different : other ≠ key) : (map.insert key value).get? other = map.get? other :=
  lookup_insertEntry_of_ne value different map.entries

theorem get?_insert (map : NameMap α) (key other : String) (value : α) :
    (map.insert key value).get? other = if other = key then some value else map.get? other := by
  split
  next same => subst same; exact map.get?_insert_self other value
  next different => exact map.get?_insert_of_ne value different

theorem mem_of_lookup {κ : Type} [BEq κ] [LawfulBEq κ] {entries : List (κ × α)} {key : κ}
    {value : α} (found : entries.lookup key = some value) : (key, value) ∈ entries := by
  obtain ⟨front, back, split, -⟩ := List.lookup_eq_some_iff.mp found
  rw [split]
  exact List.mem_append_right front List.mem_cons_self

/-- With different keys, the entries of a list are what is found in it. -/
theorem lookup_eq_some_iff {κ : Type} [BEq κ] [LawfulBEq κ] {entries : List (κ × α)} {key : κ}
    {value : α} (distinct : (entries.map (·.1)).Nodup) :
    entries.lookup key = some value ↔ (key, value) ∈ entries := by
  refine ⟨mem_of_lookup, fun member => ?_⟩
  obtain ⟨front, back, split⟩ := List.append_of_mem member
  rw [split, List.map_append, List.map_cons, List.nodup_append] at distinct
  refine List.lookup_eq_some_iff.mpr ⟨front, back, split, fun other earlier => ?_⟩
  rw [bne_iff_ne]
  exact (distinct.2.2 other.1 (List.mem_map_of_mem earlier) key List.mem_cons_self).symm

theorem nodup_of_ascending {entries : List (String × α)}
    (ascending : entries.Pairwise (fun first second => first.1 < second.1)) :
    (entries.map (·.1)).Nodup := by
  refine List.pairwise_map.mpr (ascending.imp ?_)
  intro first second less same
  exact String.lt_irrefl _ (same ▸ less)

theorem nodup_keys (map : NameMap α) : map.keys.Nodup := nodup_of_ascending map.ascending

theorem get?_eq_some_iff {map : NameMap α} {key : String} {value : α} :
    map.get? key = some value ↔ (key, value) ∈ map.entries :=
  lookup_eq_some_iff map.nodup_keys

/-- Maps with the same lookups are equal. -/
theorem ext_get? {first second : NameMap α} (same : ∀ key, first.get? key = second.get? key) :
    first = second := by
  obtain ⟨entries, ascending⟩ := first
  obtain ⟨others, ascending'⟩ := second
  have nodup : ∀ {list : List (String × α)}, (list.map (·.1)).Nodup → list.Nodup := by
    intro list distinct
    refine (List.pairwise_map.mp distinct).imp ?_
    rintro entry _ apart rfl
    exact apart rfl
  have perm : entries.Perm others := by
    have distinct := nodup_of_ascending ascending
    have distinct' := nodup_of_ascending ascending'
    refine (List.perm_ext_iff_of_nodup (nodup distinct) (nodup distinct')).mpr ?_
    rintro ⟨key, value⟩
    rw [← lookup_eq_some_iff distinct, ← lookup_eq_some_iff distinct']
    exact iff_of_eq (congrArg (· = some value) (same key))
  have equal : entries = others := by
    refine perm.eq_of_pairwise (fun a b _ _ less greater => ?_) ascending ascending'
    exact absurd (String.lt_trans less greater) (String.lt_irrefl _)
  subst equal
  rfl

theorem mem_keys {map : NameMap α} {key : String} :
    key ∈ map.keys ↔ ∃ value, map.get? key = some value := by
  simp [keys, get?_eq_some_iff]

theorem mem_values {map : NameMap α} {value : α} :
    value ∈ map.values ↔ ∃ key, map.get? key = some value := by
  simp [values, get?_eq_some_iff]

theorem length_keys (map : NameMap α) : map.keys.length = map.size := by
  simp [keys, size]

theorem get?_mapValues (map : NameMap α) (f : String → α → β) (key : String) :
    (map.mapValues f).get? key = (map.get? key).map (f key) := by
  refine Option.ext fun value => ?_
  simp only [get?_eq_some_iff, mapValues, List.mem_map, Prod.mk.injEq, Option.map_eq_some_iff]
  constructor
  · rintro ⟨entry, member, rfl, rfl⟩
    exact ⟨entry.2, member, rfl⟩
  · rintro ⟨old, member, rfl⟩
    exact ⟨(key, old), member, rfl, rfl⟩

theorem keys_mapValues (map : NameMap α) (f : String → α → β) :
    (map.mapValues f).keys = map.keys := by
  simp [keys, mapValues]

/-- Maps with values at the same keys list the same keys. -/
theorem keys_congr {first : NameMap α} {second : NameMap β}
    (same : ∀ key, (first.get? key).isSome = (second.get? key).isSome) :
    first.keys = second.keys := by
  have equal : first.mapValues (fun _ _ => ()) = second.mapValues (fun _ _ => ()) := by
    refine ext_get? fun key => ?_
    have held := same key
    rw [get?_mapValues, get?_mapValues]
    cases there : first.get? key <;> cases others : second.get? key <;> simp_all
  rw [← keys_mapValues first fun _ _ => (), equal, keys_mapValues]

theorem get?_foldl_insert (names : List String) (f : String → α) (map : NameMap α)
    (key : String) :
    ((names.map fun name => (name, f name)).foldl
        (fun map entry => map.insert entry.1 entry.2) map).get? key =
      if key ∈ names then some (f key) else map.get? key := by
  induction names generalizing map with
  | nil => simp
  | cons name names ih =>
    rw [List.map_cons, List.foldl_cons, ih, get?_insert]
    by_cases later : key ∈ names
    · simp [later]
    · by_cases same : key = name <;> simp [later, same]

/-- A map that is listed as a function on names looks that function up. -/
theorem get?_ofList_map (names : List String) (f : String → α) (key : String) :
    (ofList (names.map fun name => (name, f name))).get? key =
      if key ∈ names then some (f key) else none := by
  rw [ofList, get?_foldl_insert, get?_empty]

/-- An entry of a map was there before others were inserted, or it is one of them. -/
theorem get?_foldl_insert_or (entries : List (String × α)) (map : NameMap α) {key : String}
    {value : α}
    (found : (entries.foldl (fun map entry => map.insert entry.1 entry.2) map).get? key =
      some value) :
    map.get? key = some value ∨ (key, value) ∈ entries := by
  induction entries generalizing map with
  | nil => exact .inl found
  | cons entry entries ih =>
    rcases ih (map.insert entry.1 entry.2) found with earlier | later
    · rw [get?_insert] at earlier
      split at earlier
      next same =>
        cases earlier
        subst same
        exact .inr List.mem_cons_self
      next => exact .inl earlier
    · exact .inr (List.mem_cons_of_mem entry later)

theorem mem_of_get?_ofList {entries : List (String × α)} {key : String} {value : α}
    (found : (ofList entries).get? key = some value) : (key, value) ∈ entries := by
  rcases get?_foldl_insert_or entries empty found with none | member
  · rw [get?_empty] at none
    cases none
  · exact member

/-- In the map of a list of entries, a key has the value of its last entry. -/
theorem get?_ofList (entries : List (String × α)) (key : String) :
    (ofList entries).get? key = entries.reverse.lookup key := by
  have from_map : ∀ map : NameMap α,
      (entries.foldl (fun map entry => map.insert entry.1 entry.2) map).get? key =
        (entries.reverse.lookup key).or (map.get? key) := by
    induction entries with
    | nil => exact fun map => rfl
    | cons entry entries ih =>
      intro map
      obtain ⟨name, value⟩ := entry
      rw [List.foldl_cons, ih, get?_insert, List.reverse_cons, List.lookup_append,
        Option.or_assoc, List.lookup_cons]
      by_cases same : key = name
      · rw [if_pos same, beq_iff_eq.mpr same]
        rfl
      · rw [if_neg same, beq_eq_false_iff_ne.mpr same]
        rfl
  rw [ofList, from_map, get?_empty, Option.or_none]

theorem get?_foldl_insert_of_not_mem (entries : List (String × α)) (map : NameMap α) {key : String}
    (absent : key ∉ entries.map (·.1)) :
    (entries.foldl (fun map entry => map.insert entry.1 entry.2) map).get? key = map.get? key := by
  induction entries generalizing map with
  | nil => rfl
  | cons entry entries ih =>
    rw [List.map_cons, List.mem_cons, not_or] at absent
    rw [List.foldl_cons, ih _ absent.2, get?_insert_of_ne _ _ absent.1]

/-- A map of entries with different keys holds exactly these entries. -/
theorem get?_ofList_iff {entries : List (String × α)} (distinct : (entries.map (·.1)).Nodup)
    {key : String} {value : α} :
    (ofList entries).get? key = some value ↔ (key, value) ∈ entries := by
  refine ⟨mem_of_get?_ofList, fun member => ?_⟩
  have found : ∀ map : NameMap α,
      (entries.foldl (fun map entry => map.insert entry.1 entry.2) map).get? key = some value := by
    induction entries with
    | nil => cases member
    | cons entry entries ih =>
      intro map
      obtain ⟨fresh, rest⟩ := List.nodup_cons.mp distinct
      rcases List.mem_cons.mp member with rfl | later
      · rw [List.foldl_cons, get?_foldl_insert_of_not_mem _ _ fresh, get?_insert_self]
      · exact ih rest later _
  exact found empty

theorem get?_foldl_insert_eq_or (entries : List (String × α)) (map : NameMap α) (key : String) :
    (entries.foldl (fun map entry => map.insert entry.1 entry.2) map).get? key =
      ((ofList entries).get? key).or (map.get? key) := by
  induction entries generalizing map with
  | nil => rfl
  | cons entry entries ih =>
    rw [ofList, List.foldl_cons, List.foldl_cons, ih, ih (empty.insert entry.1 entry.2),
      get?_insert, get?_insert, Option.or_assoc]
    split
    · rfl
    · rfl

@[simp]
theorem ofList_entries (map : NameMap α) : ofList map.entries = map := by
  refine ext_get? fun key => Option.ext fun value => ?_
  rw [get?_ofList_iff map.nodup_keys, get?_eq_some_iff]

/-- With different keys, the order of the entries does not matter. -/
theorem ofList_perm {entries others : List (String × α)} (same : entries.Perm others)
    (distinct : (entries.map (·.1)).Nodup) : ofList entries = ofList others := by
  refine ext_get? fun key => Option.ext fun value => ?_
  have distinct' : (others.map (·.1)).Nodup := (same.map (·.1)).nodup_iff.mp distinct
  rw [get?_ofList_iff distinct, get?_ofList_iff distinct', same.mem_iff]

theorem size_ofList {entries : List (String × α)} (distinct : (entries.map (·.1)).Nodup) :
    (ofList entries).size = entries.length := by
  have same : (ofList entries).keys.Perm (entries.map (·.1)) := by
    refine (List.perm_ext_iff_of_nodup (nodup_keys _) distinct).mpr fun key => ?_
    simp [mem_keys, get?_ofList_iff distinct]
  rw [← length_keys, same.length_eq, List.length_map]

/-- Of two maps the second one has precedence. -/
theorem get?_union (first second : NameMap α) (key : String) :
    (first.union second).get? key = (second.get? key).or (first.get? key) := by
  rw [union, get?_foldl_insert_eq_or, ofList_entries]

@[simp]
theorem empty_union (map : NameMap α) : empty.union map = map :=
  ext_get? fun key => by rw [get?_union, get?_empty, Option.or_none]

@[simp]
theorem union_empty (map : NameMap α) : map.union empty = map := rfl

theorem union_assoc (first second third : NameMap α) :
    (first.union second).union third = first.union (second.union third) :=
  ext_get? fun key => by simp only [get?_union, Option.or_assoc]

end NameMap

end SqlPipeline
