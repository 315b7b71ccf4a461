import SqlPipeline.Proofs.Json.Record
import SqlPipeline.Proofs.Toml.Values
import SqlPipeline.Settings

/-!
# Reading settings in any order

A record is read from an object whatever the order of its members, so two TOML values that differ
only in the order of entries denote the same settings.
-/

namespace SqlPipeline.Json

variable {α : Type} {read : Json → Option α} {value other : Json} {result default : α}
  {items : List Json} {members others : List (String × Json)} {names : List String} {name : String}

/-- A result is read from each TOML value that differs from a value in the order of members only. -/
def Reads (read : Json → Option α) (value : Json) (result : α) : Prop :=
  ∀ other : Json, other.IsToml → other.canonical = value.canonical → read other = some result

/-! ## Plain values -/

/-- Values without parts and without a point. -/
inductive IsPlain : Json → Prop
  | bool (value : Bool) : IsPlain (.bool value)
  | integer (n : Int) : IsPlain (.number (.integer n))
  | string (text : String) : IsPlain (.string text)

/-- Nothing else than a plain value has its canonical form. -/
theorem eq_of_canonical_eq (plain : value.IsPlain) (toml : other.IsToml)
    (same : other.canonical = value.canonical) : other = value := by
  have fixed : value.canonical = value := by cases plain <;> rfl
  rw [fixed] at same
  cases toml with
  | real x =>
    rw [canonical] at same
    split at same
    · exact same
    · subst same
      cases plain
  | @array items each =>
    rw [canonical_array] at same
    subst same
    cases plain
  | @object members distinct each =>
    rw [canonical_object] at same
    subst same
    cases plain
  | bool => exact same
  | integer => exact same
  | string => exact same

/-- A plain value is read from itself only. -/
theorem reads_of_isPlain (plain : value.IsPlain) (back : read value = some result) :
    Reads read value result := by
  intro other toml same
  rw [eq_of_canonical_eq plain toml same, back]

theorem reads_text (text : String) : Reads text? (string text) text :=
  reads_of_isPlain (.string text) rfl

theorem reads_bool (value : Bool) : Reads bool? (bool value) value :=
  reads_of_isPlain (.bool value) rfl

theorem reads_nat {n : Nat} (small : n < Nat.pow 2 64) : Reads nat? (nat n) n :=
  reads_of_isPlain (.integer n) (nat?_nat small)

theorem reads_nullable_text (text : String) : Reads (nullable? text?) (string text) (some text) :=
  reads_of_isPlain (.string text) rfl

theorem eq_strings_of_canonical_eq {items : List Json} {texts : List String}
    (each : ∀ item ∈ items, item.IsToml)
    (same : items.map canonical = texts.map string) : items = texts.map string := by
  induction items generalizing texts with
  | nil => simpa using same
  | cons item items ih =>
    cases texts with
    | nil => cases same
    | cons text texts =>
      obtain ⟨here, later⟩ := List.forall_mem_cons.mp each
      obtain ⟨first, rest⟩ := List.cons.inj same
      rw [List.map_cons, eq_of_canonical_eq (.string text) here first, ih later rest]

/-- An array has the canonical form of another one just if the items of both do. -/
theorem exists_array (toml : other.IsToml) (same : other.canonical = (array items).canonical) :
    ∃ others, other = array others ∧ (∀ item ∈ others, item.IsToml) ∧
      others.map canonical = items.map canonical := by
  rw [canonical_array] at same
  cases toml with
  | @array others each =>
    rw [canonical_array] at same
    exact ⟨others, rfl, each, Json.array.inj same⟩
  | @object members distinct each =>
    rw [canonical_object] at same
    cases same
  | real x =>
    rw [canonical] at same
    split at same <;> cases same
  | bool => cases same
  | integer => cases same
  | string => cases same

theorem reads_texts (texts : List String) : Reads texts? (strings texts) texts := by
  intro other toml same
  obtain ⟨others, rfl, each, alike⟩ := exists_array toml same
  have fixed : (texts.map string).map canonical = texts.map string := by
    rw [List.map_map]
    rfl
  rw [eq_strings_of_canonical_eq each (alike.trans fixed)]
  exact texts?_strings texts

/-! ## Objects -/

/-- An object has the canonical form of another one just if both have the same members up to
order. -/
theorem exists_object (toml : other.IsToml) (same : other.canonical = (object members).canonical) :
    ∃ others, other = object others ∧ (others.map (·.1)).Nodup ∧
      (∀ member ∈ others, member.2.IsToml) ∧ canonicalMap others = canonicalMap members := by
  rw [canonical_object] at same
  cases toml with
  | @object others distinct each =>
    rw [canonical_object] at same
    refine ⟨others, rfl, distinct, each, NameMap.ext_get? fun key => ?_⟩
    exact congrArg (List.lookup key) (Json.object.inj same)
  | @array items each =>
    rw [canonical_array] at same
    cases same
  | real x =>
    rw [canonical] at same
    split at same <;> cases same
  | bool => cases same
  | integer => cases same
  | string => cases same

/-- What a record that was read holds: the members of an object, up to their order. -/
structure Record.Holds (record : Record) (names : List String) (members : List (String × Json)) :
    Prop where
  each : ∀ field ∈ record.fields, field.2.IsToml
  same : ∀ name ∈ names, (record.fields.lookup name).map canonical =
    (members.lookup name).map canonical

/-- The fields of a record are found among all members. -/
theorem lookup_filter_contains (members : List (String × Json)) (known : name ∈ names) :
    (members.filter fun member => names.contains member.1).lookup name = members.lookup name := by
  induction members with
  | nil => rfl
  | cons member members ih =>
    by_cases here : names.contains member.1 = true
    · rw [List.filter_cons, if_pos here, List.lookup_cons, List.lookup_cons, ih]
    · have other : (name == member.1) = false := by
        refine beq_eq_false_iff_ne.mpr fun same => here ?_
        rw [← same]
        exact List.contains_iff_mem.mpr known
      rw [List.filter_cons, if_neg here, List.lookup_cons, other, ih]

/-- A record is read from each object that differs from the given one in the order of members. -/
theorem exists_record (distinct : (members.map (·.1)).Nodup) (toml : other.IsToml)
    (same : other.canonical = (object members).canonical) (surplus : Bool) (names : List String) :
    ∃ record, Record.read? surplus names other = some record ∧ record.Holds names members := by
  obtain ⟨others, rfl, distinct', each, alike⟩ := exists_object toml same
  have known : ((others.filter fun member => names.contains member.1).map (·.1)).Nodup :=
    (List.filter_sublist.map _).nodup distinct'
  refine ⟨⟨_, false⟩, by rw [Record.read?, if_pos known], ?_, fun name listed => ?_⟩
  · exact fun field member => each field (List.mem_filter.mp member).1
  · rw [lookup_filter_contains others listed, ← get?_canonicalMap distinct',
      ← get?_canonicalMap distinct, alike]

namespace Record.Holds

variable {record : Record}

/-- A field that is there is read. -/
theorem withDefault?_some (holds : record.Holds names members) (name : String)
    (known : name ∈ names) (field : members.lookup name = some value)
    (reads : Reads read value result) :
    record.withDefault? name default read = some result := by
  have same := holds.same name known
  rw [field, Option.map_some, Option.map_eq_some_iff] at same
  obtain ⟨other, found, alike⟩ := same
  rw [Record.withDefault?, found]
  exact reads other (holds.each (name, other) (NameMap.mem_of_lookup found)) alike

/-- A field that is not there has its default. -/
theorem withDefault?_none (holds : record.Holds names members) (name : String)
    (known : name ∈ names) (field : members.lookup name = none) :
    record.withDefault? name default read = some default := by
  have same := holds.same name known
  rw [field, Option.map_none, Option.map_eq_none_iff] at same
  rw [Record.withDefault?, same]

end Record.Holds

end SqlPipeline.Json
