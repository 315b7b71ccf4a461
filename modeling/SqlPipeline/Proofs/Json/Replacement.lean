import SqlPipeline.Proofs.Json.Omission
import SqlPipeline.Proofs.Success

/-!
# Maps with one value replaced

Of several values with one key in an object, the last is the value of the map that is read. A map in
whose object one value is replaced is the same map with the value at its key changed, unless a later
value has this key.
-/

namespace SqlPipeline.NameMap

variable {α : Type} {key : String} {change : α → α} {value : α} {before after : List (String × α)}

/-- The map with the value at a key changed, if there is one. -/
def changeAt (key : String) (change : α → α) (map : NameMap α) : NameMap α :=
  map.mapValues fun name value => if name = key then change value else value

@[simp]
theorem changeAt_id (key : String) (map : NameMap α) : map.changeAt key id = map := by
  refine ext_get? fun name => ?_
  rw [changeAt, get?_mapValues]
  simp

theorem get?_changeAt (key name : String) (change : α → α) (map : NameMap α) :
    (map.changeAt key change).get? name =
      (map.get? name).map fun value => if name = key then change value else value :=
  get?_mapValues map _ name

/-- The last value with a key counts. -/
theorem get?_ofList_append_cons_self (last : key ∉ after.map (·.1)) :
    (ofList (before ++ (key, value) :: after)).get? key = some value := by
  rw [get?_ofList, List.reverse_append, List.reverse_cons, List.append_assoc,
    List.singleton_append]
  exact Json.lookup_append_cons_self (by simpa using last) _ value

/-- Other values do not depend on the one with a key. -/
theorem get?_ofList_append_cons_of_ne {name : String} (apart : name ≠ key) :
    (ofList (before ++ (key, value) :: after)).get? name =
      (ofList (before ++ after)).get? name := by
  rw [get?_ofList, get?_ofList, List.reverse_append, List.reverse_cons, List.append_assoc,
    List.singleton_append, Json.lookup_append_cons_of_ne apart, List.reverse_append]

/-- A value with a key does not count if a later one has this key. -/
theorem get?_ofList_append_cons_of_mem (later : key ∈ after.map (·.1)) :
    (ofList (before ++ (key, value) :: after)).get? key = (ofList (before ++ after)).get? key := by
  obtain ⟨found, there⟩ : ∃ found, after.reverse.lookup key = some found := by
    by_contra! none
    have missing := List.lookup_eq_none_iff.mp (Option.eq_none_iff_forall_ne_some.mpr none)
    obtain ⟨entry, member, rfl⟩ := List.mem_map.mp later
    simpa using missing entry (List.mem_reverse.mpr member)
  have rest : ∀ front : List (String × α), (after.reverse ++ front).lookup key = some found := by
    intro front
    rw [List.lookup_append, there, Option.some_or]
  rw [get?_ofList, get?_ofList, List.reverse_append, List.reverse_cons, List.append_assoc,
    List.reverse_append, rest, rest]

/-- A map with another value for a key is the map with the value changed, unless a later value has
this key. -/
theorem ofList_append_cons :
    ofList (before ++ (key, change value) :: after) =
      if key ∈ after.map (·.1) then ofList (before ++ (key, value) :: after)
      else (ofList (before ++ (key, value) :: after)).changeAt key change := by
  refine ext_get? fun name => ?_
  by_cases later : key ∈ after.map (·.1)
  · rw [if_pos later]
    by_cases here : name = key
    · subst here
      rw [get?_ofList_append_cons_of_mem later, get?_ofList_append_cons_of_mem later]
    · rw [get?_ofList_append_cons_of_ne here, get?_ofList_append_cons_of_ne here]
  · rw [if_neg later, get?_changeAt]
    by_cases here : name = key
    · subst here
      rw [get?_ofList_append_cons_self later, get?_ofList_append_cons_self later, Option.map_some,
        if_pos rfl]
    · rw [get?_ofList_append_cons_of_ne here, get?_ofList_append_cons_of_ne here]
      simp [here]

end SqlPipeline.NameMap

namespace SqlPipeline.Json

variable {α : Type} {read : Json → Option α} {change : α → α} {omitted written : Json}
  {before after : List (String × Json)} {key : String} {map : NameMap α}

/-! ## Reading maps -/

/-- Read the value of a member. -/
def readMember? (read : Json → Option α) (member : String × Json) : Option (String × α) :=
  (read member.2).map (member.1, ·)

theorem map?_object (members : List (String × Json)) :
    map? read (object members) = (members.mapM (readMember? read)).bind fun entries =>
      some (NameMap.ofList entries) := rfl

/-- The members of an object are read one by one, and their keys stay. -/
theorem map_fst_of_mapM_readMember? {members : List (String × Json)} {entries : List (String × α)}
    (all : members.mapM (readMember? read) = some entries) :
    entries.map (·.1) = members.map (·.1) := by
  rw [mapM_option_eq_some_iff] at all
  induction all with
  | nil => rfl
  | cons here _ ih =>
    obtain ⟨result, -, rfl⟩ := Option.map_eq_some_iff.mp here
    rw [List.map_cons, List.map_cons, ih]

/-- What is read from an object with a value between others. -/
theorem map?_append_cons (before after : List (String × Json)) (key : String) (value : Json) :
    map? read (object (before ++ (key, value) :: after)) =
      (before.mapM (readMember? read)).bind fun first => (read value).bind fun result =>
        (after.mapM (readMember? read)).bind fun rest =>
          some (NameMap.ofList (first ++ (key, result) :: rest)) := by
  rw [map?_object, List.mapM_append, List.mapM_cons, readMember?]
  cases before.mapM (readMember? read) <;> cases read value <;>
    cases after.mapM (readMember? read) <;> rfl

/-- A map whose value at a place is read as a change of another one is read as the map with that
one, changed there unless a later value has the key. -/
theorem map?_replace (same : read written = (read omitted).map change) :
    map? read (object (before ++ (key, written) :: after)) =
      (map? read (object (before ++ (key, omitted) :: after))).map fun map =>
        if key ∈ after.map (·.1) then map else map.changeAt key change := by
  rw [map?_append_cons, map?_append_cons, same]
  cases before.mapM (readMember? read) with
  | none => rfl
  | some first =>
    cases read omitted with
    | none => rfl
    | some value =>
      cases last : after.mapM (readMember? read) with
      | none => rfl
      | some rest =>
        rw [← map_fst_of_mapM_readMember? last]
        exact congrArg some NameMap.ofList_append_cons

/-- The last value with a key in an object is the value of the map there. -/
theorem get?_of_map?_append_cons {value : Json}
    (all : map? read (object (before ++ (key, value) :: after)) = some map)
    (last : key ∉ after.map (·.1)) : ∃ result, read value = some result ∧
      map.get? key = some result := by
  simp only [map?_append_cons, Option.bind_eq_some_iff] at all
  obtain ⟨first, -, result, here, rest, later, made⟩ := all
  refine ⟨result, here, ?_⟩
  rw [← Option.some.inj made]
  exact NameMap.get?_ofList_append_cons_self (map_fst_of_mapM_readMember? later ▸ last)

end SqlPipeline.Json
