import SqlPipeline.Proofs.Json.Reading
import SqlPipeline.Toml.Value

/-!
# Values that TOML has

A TOML value has no null, no integer beyond 64 bits with a sign, and no key twice in one table.  Its
canonical form as JSON differs from it in the order of members, and in null where a number is not
finite, and only there it leaves TOML.
-/

namespace SqlPipeline

namespace Json

variable {value item : Json} {items : List Json} {members others : List (String × Json)}
  {key : String}

/-- What the JSON of a TOML value looks like. -/
inductive IsToml : Json → Prop
  | bool (value : Bool) : IsToml (.bool value)
  | integer {n : Int} (least : -(Nat.pow 2 63 : Int) ≤ n) (greatest : n < Nat.pow 2 63) :
      IsToml (.number (.integer n))
  | real (x : Binary64) : IsToml (.number (.real x))
  | string (text : String) : IsToml (.string text)
  | array {items : List Json} (each : ∀ item ∈ items, IsToml item) : IsToml (.array items)
  | object {members : List (String × Json)} (distinct : (members.map (·.1)).Nodup)
      (each : ∀ member ∈ members, IsToml member.2) : IsToml (.object members)

/-- Numbers that are neither infinite nor undefined. -/
def Number.IsFinite : Number → Prop
  | .integer _ => True
  | .real x => x.isFinite = true

/-! ## Comparison -/

mutual

/-- Values that are written alike are equal. -/
theorem eq_of_same : ∀ {a b : Json}, same a b = true → a = b
  | .null, .null, _ => rfl
  | .bool _, .bool _, alike => congrArg bool (eq_of_beq alike)
  | .number _, .number _, alike => congrArg number (eq_of_beq alike)
  | .string _, .string _, alike => congrArg string (eq_of_beq alike)
  | .array _, .array _, alike => congrArg array (eq_of_sameItems alike)
  | .object _, .object _, alike => congrArg object (eq_of_sameMembers alike)

theorem eq_of_sameItems : ∀ {a b : List Json}, sameItems a b = true → a = b
  | [], [], _ => rfl
  | first :: rest, second :: others, alike => by
    obtain ⟨here, later⟩ := (Bool.and_eq_true _ _).mp alike
    rw [eq_of_same here, eq_of_sameItems later]

theorem eq_of_sameMembers : ∀ {a b : List (String × Json)}, sameMembers a b = true → a = b
  | [], [], _ => rfl
  | (key, first) :: rest, (other, second) :: others, alike => by
    obtain ⟨front, later⟩ := (Bool.and_eq_true _ _).mp alike
    obtain ⟨keys, here⟩ := (Bool.and_eq_true _ _).mp front
    rw [eq_of_beq keys, eq_of_same here, eq_of_sameMembers later]

end

mutual

theorem same_self : ∀ value : Json, same value value = true
  | .null => rfl
  | .bool _ => beq_self_eq_true _
  | .number _ => beq_self_eq_true _
  | .string _ => beq_self_eq_true _
  | .array items => sameItems_self items
  | .object members => sameMembers_self members

theorem sameItems_self : ∀ items : List Json, sameItems items items = true
  | [] => rfl
  | item :: items => by rw [sameItems, same_self, sameItems_self, Bool.and_self]

theorem sameMembers_self : ∀ members : List (String × Json), sameMembers members members = true
  | [] => rfl
  | (key, value) :: members => by
    rw [sameMembers, same_self, sameMembers_self, beq_self_eq_true, Bool.and_self, Bool.and_self]

end

instance : DecidableEq Json := fun a b =>
  decidable_of_iff (same a b = true) ⟨eq_of_same, fun equal => equal ▸ same_self a⟩

/-! ## Canonical forms -/

/-- The canonical members of an object as a map. -/
def canonicalMap (members : List (String × Json)) : NameMap Json :=
  .ofList (members.map fun member => (member.1, canonical member.2))

theorem canonicalItems_eq (items : List Json) : canonicalItems items = items.map canonical := by
  induction items with
  | nil => rfl
  | cons item items ih => rw [canonicalItems, ih, List.map_cons]

theorem canonicalMembers_eq (members : List (String × Json)) :
    canonicalMembers [] members = (canonicalMap members).entries := by
  have added : ∀ map : NameMap Json, canonicalMembers map.entries members =
      ((members.map fun member => (member.1, canonical member.2)).foldl
        (fun map entry => map.insert entry.1 entry.2) map).entries := by
    induction members with
    | nil => exact fun map => rfl
    | cons member members ih => exact fun map => ih (map.insert member.1 (canonical member.2))
  exact added .empty

theorem canonical_array (items : List Json) :
    canonical (array items) = array (items.map canonical) := by
  rw [canonical, canonicalItems_eq]

theorem canonical_object (members : List (String × Json)) :
    canonical (object members) = object (canonicalMap members).entries := by
  rw [canonical, canonicalMembers_eq]

theorem keys_map_canonical (members : List (String × Json)) :
    (members.map fun member => (member.1, canonical member.2)).map (·.1) = members.map (·.1) := by
  rw [List.map_map]
  rfl

theorem mem_canonicalMap (distinct : (members.map (·.1)).Nodup) :
    (key, value) ∈ (canonicalMap members).entries ↔
      ∃ original, (key, original) ∈ members ∧ value = canonical original := by
  rw [← NameMap.get?_eq_some_iff, canonicalMap,
    NameMap.get?_ofList_iff (by rwa [keys_map_canonical]), List.mem_map]
  constructor
  · rintro ⟨⟨name, original⟩, member, same⟩
    obtain ⟨rfl, rfl⟩ := Prod.mk.inj same
    exact ⟨original, member, rfl⟩
  · rintro ⟨original, member, rfl⟩
    exact ⟨_, member, rfl⟩

/-- In the canonical form of an object, a key has the canonical form of its value. -/
theorem get?_canonicalMap (distinct : (members.map (·.1)).Nodup) (key : String) :
    (canonicalMap members).get? key = (members.lookup key).map canonical := by
  refine Option.ext fun value => ?_
  rw [NameMap.get?_eq_some_iff, mem_canonicalMap distinct, Option.map_eq_some_iff]
  simp only [NameMap.lookup_eq_some_iff distinct, eq_comm]

/-- A canonical form is its own canonical form. -/
theorem canonical_canonical (toml : IsToml value) :
    canonical (canonical value) = canonical value := by
  induction toml with
  | bool value => rfl
  | integer => rfl
  | real x =>
    rw [canonical]
    split
    next finite => rw [canonical, if_pos finite]
    next => rfl
  | string text => rfl
  | @array items each ih =>
    rw [canonical_array, canonical_array, List.map_map]
    exact congrArg array (List.map_congr_left ih)
  | @object members distinct each ih =>
    have fixed : ((canonicalMap members).entries.map fun member => (member.1, canonical member.2)) =
        (canonicalMap members).entries := by
      refine (List.map_congr_left fun entry member => ?_).trans (List.map_id _)
      obtain ⟨original, present, value⟩ := (mem_canonicalMap distinct).mp member
      rw [value, ih _ present, ← value, id]
    rw [canonical_object, canonical_object, canonicalMap, fixed, NameMap.ofList_entries]

end Json

namespace Toml

variable {value : Json} {items : List Json} {members : List (String × Json)}

/-! ## Values of TOML from JSON -/

theorem toJsonItems_eq (items : List Toml) : toJsonItems items = items.map toJson := by
  induction items with
  | nil => rfl
  | cons item items ih => rw [toJsonItems, ih, List.map_cons]

theorem toJsonMembers_eq (entries : List (String × Toml)) :
    toJsonMembers entries = entries.map fun entry => (entry.1, entry.2.toJson) := by
  induction entries with
  | nil => rfl
  | cons entry entries ih => rw [toJsonMembers, ih, List.map_cons]

theorem lookup_toJsonMembers (entries : List (String × Toml)) (key : String) :
    (toJsonMembers entries).lookup key = (entries.lookup key).map toJson := by
  induction entries with
  | nil => rfl
  | cons entry entries ih =>
    rw [toJsonMembers, List.lookup_cons, List.lookup_cons, ih]
    cases key == entry.1 <;> rfl

mutual

/-- The TOML value of a JSON value has that JSON value. -/
theorem toJson_of_ofJson? : ∀ {value : Json} {toml : Toml}, ofJson? value = some toml →
    toml.toJson = value
  | .null, _, run => by cases run
  | .bool _, _, run => by cases run; rfl
  | .number (.integer n), _, run => by
    rw [ofJson?] at run
    split at run
    · cases run; rfl
    · cases run
  | .number (.real _), _, run => by cases run; rfl
  | .string _, _, run => by cases run; rfl
  | .array items, _, run => by
    obtain ⟨tomls, read, rfl⟩ := Option.map_eq_some_iff.mp run
    rw [toJson, toJsonItems_of_ofJsonItems? read]
  | .object members, _, run => by
    obtain ⟨entries, read, rfl⟩ := Option.map_eq_some_iff.mp run
    rw [toJson, toJsonMembers_of_ofJsonMembers? read]

theorem toJsonItems_of_ofJsonItems? : ∀ {items : List Json} {tomls : List Toml},
    ofJsonItems? items = some tomls → toJsonItems tomls = items
  | [], _, run => by cases run; rfl
  | item :: items, _, run => by
    obtain ⟨toml, here, run⟩ := Option.bind_eq_some_iff.mp run
    obtain ⟨tomls, later, run⟩ := Option.bind_eq_some_iff.mp run
    cases run
    rw [toJsonItems, toJson_of_ofJson? here, toJsonItems_of_ofJsonItems? later]

theorem toJsonMembers_of_ofJsonMembers? : ∀ {members : List (String × Json)}
    {entries : List (String × Toml)},
    ofJsonMembers? members = some entries → toJsonMembers entries = members
  | [], _, run => by cases run; rfl
  | (key, value) :: members, _, run => by
    obtain ⟨toml, here, run⟩ := Option.bind_eq_some_iff.mp run
    obtain ⟨entries, later, run⟩ := Option.bind_eq_some_iff.mp run
    cases run
    rw [toJsonMembers, toJson_of_ofJson? here, toJsonMembers_of_ofJsonMembers? later]

end

theorem isSome_ofJsonItems?_iff :
    (ofJsonItems? items).isSome = true ↔ ∀ item ∈ items, (ofJson? item).isSome = true := by
  induction items with
  | nil => simp [ofJsonItems?]
  | cons item items ih =>
    rw [ofJsonItems?, List.forall_mem_cons, ← ih]
    cases ofJson? item <;> cases ofJsonItems? items <;> simp

theorem isSome_ofJsonMembers?_iff :
    (ofJsonMembers? members).isSome = true ↔
      ∀ member ∈ members, (ofJson? member.2).isSome = true := by
  induction members with
  | nil => simp [ofJsonMembers?]
  | cons member members ih =>
    rw [ofJsonMembers?, List.forall_mem_cons, ← ih]
    cases ofJson? member.2 <;> cases ofJsonMembers? members <;> simp

theorem isSome_ofJson?_object_iff :
    (ofJson? (.object members)).isSome = true ↔
      ∀ member ∈ members, (ofJson? member.2).isSome = true := by
  rw [ofJson?, Option.isSome_map, isSome_ofJsonMembers?_iff]

/-- The canonical form of a TOML value is one again just if all numbers are finite. -/
theorem isSome_ofJson?_canonical_iff (toml : value.IsToml) :
    (ofJson? value.canonical).isSome = true ↔ value.AllNumbers Json.Number.IsFinite := by
  induction toml with
  | bool value => exact ⟨fun _ => .bool value, fun _ => rfl⟩
  | @integer n least greatest =>
    have some : ofJson? (Json.number (.integer n)).canonical = some (integer n) :=
      if_pos ⟨least, greatest⟩
    rw [some]
    exact ⟨fun _ => .number trivial, fun _ => rfl⟩
  | real x =>
    rw [Json.canonical]
    split
    next finite => exact ⟨fun _ => .number finite, fun _ => rfl⟩
    next infinite =>
      constructor
      · intro none
        cases none
      · rintro (_ | _ | finite)
        exact absurd finite infinite
  | string text => exact ⟨fun _ => .string text, fun _ => rfl⟩
  | @array items each ih =>
    rw [Json.canonical_array, ofJson?, Option.isSome_map, isSome_ofJsonItems?_iff,
      List.forall_mem_map]
    constructor
    · exact fun some => .array fun item member => (ih item member).mp (some item member)
    · rintro (_ | _ | _ | _ | finite) item member
      exact (ih item member).mpr (finite item member)
  | @object members distinct each ih =>
    rw [Json.canonical_object, isSome_ofJson?_object_iff]
    constructor
    · intro some
      refine .object fun member present => (ih member present).mp (some (member.1, _) ?_)
      exact (Json.mem_canonicalMap distinct).mpr ⟨_, present, rfl⟩
    · rintro (_ | _ | _ | _ | _ | finite) ⟨key, value⟩ member
      obtain ⟨original, present, rfl⟩ := (Json.mem_canonicalMap distinct).mp member
      exact (ih _ present).mpr (finite _ present)

end Toml

end SqlPipeline
