import SqlPipeline.Json.Record
import SqlPipeline.Proofs.Json.Reading

/-!
# Reading back records

A value of each kind is read back from the JSON that is written for it: texts, lists, maps, what may
be missing, and records whose fields are written in order of declaration.
-/

namespace SqlPipeline.Json

variable {α : Type} {read : Json → Option α} {write : α → Json} {value : α} {values : List α}
  {members rest : List (String × Json)} {names : List String} {key other : String}
  {p : Number → Prop}

/-! ## Values -/

@[simp]
theorem text?_string (text : String) : text? (string text) = some text := rfl

@[simp]
theorem bool?_bool (value : Bool) : bool? (bool value) = some value := rfl

theorem natBelow?_nat {bound n : Nat} (small : n < bound) : natBelow? bound (nat n) = some n := by
  rw [nat, int, natBelow?, if_pos (by omega), Int.toNat_natCast]

theorem nat?_nat {n : Nat} (small : n < Nat.pow 2 64) : nat? (nat n) = some n := by
  rw [nat?, natBelow?_nat small]

theorem real?_toJson {x : Binary64} (finite : x.isFinite = true) :
    real? (number (.real x)) = some x := by
  rw [real?, if_pos finite]

/-- A list is read back when its items are. -/
theorem list?_map (back : ∀ value ∈ values, read (write value) = some value) :
    list? read (array (values.map write)) = some values := by
  rw [list?]
  induction values with
  | nil => rfl
  | cons value values ih =>
    obtain ⟨here, later⟩ := List.forall_mem_cons.mp back
    rw [List.map_cons, List.mapM_cons, here, ih later]
    rfl

@[simp]
theorem texts?_strings (texts : List String) : texts? (strings texts) = some texts :=
  list?_map fun text _ => text?_string text

/-- A value that may be missing is read back when it is and is not written as null. -/
theorem nullable?_nullable {value : Option α} (back : ∀ v ∈ value, read (write v) = some v)
    (written : ∀ v, write v ≠ null) : nullable? read (nullable write value) = some value := by
  cases value with
  | none => rfl
  | some v =>
    rw [nullable, nullable?, back v rfl]
    · rfl
    · exact written v

@[simp]
theorem nullable?_text (text : Option String) :
    nullable? text? (nullable string text) = some text :=
  nullable?_nullable (fun v _ => text?_string v) fun _ => Json.noConfusion

/-- A map is read back when its values are. -/
theorem map?_ofMap {map : NameMap α}
    (back : ∀ entry ∈ map.entries, read (write entry.2) = some entry.2) :
    map? read (ofMap write map) = some map := by
  have entries : ∀ entries : List (String × α),
      (∀ entry ∈ entries, read (write entry.2) = some entry.2) →
        ((entries.map fun entry => (entry.1, write entry.2)).mapM fun entry =>
          (read entry.2).map (entry.1, ·)) = some entries := by
    intro entries back
    induction entries with
    | nil => rfl
    | cons entry entries ih =>
      obtain ⟨here, later⟩ := List.forall_mem_cons.mp back
      rw [List.map_cons, List.mapM_cons, here, ih later]
      rfl
  rw [ofMap, map?, entries map.entries back]
  exact congrArg some (NameMap.ofList_entries map)

/-! ## Records -/

/-- A record whose members are some of its fields, in order of declaration, is read as they are. -/
theorem Record.read?_object {surplus : Bool} (declared : (members.map (·.1)).Sublist names)
    (distinct : names.Nodup) : Record.read? surplus names (object members) =
      some ⟨members, false⟩ := by
  have known : (members.filter fun member => names.contains member.1) = members := by
    rw [List.filter_eq_self]
    intro member present
    exact List.contains_iff_mem.mpr (declared.subset (List.mem_map_of_mem present))
  rw [Record.read?, known, if_pos (declared.nodup distinct)]

theorem sublist_optionalMember (key : String) (write : α → Json) (value : Option α) :
    ((optionalMember key write value).map (·.1)).Sublist [key] := by
  cases value with
  | none => exact List.nil_sublist _
  | some value => exact List.Sublist.refl _

@[simp]
theorem lookup_optionalMember_self (key : String) (write : α → Json) (value : Option α) :
    (optionalMember key write value).lookup key = value.map write := by
  cases value with
  | none => rfl
  | some value => simp [optionalMember]

@[simp]
theorem lookup_optionalMember_of_ne (apart : key ≠ other) (write : α → Json) (value : Option α) :
    (optionalMember other write value).lookup key = none := by
  cases value with
  | none => rfl
  | some value =>
    have no : (key == other) = false := beq_eq_false_iff_ne.mpr apart
    simp [optionalMember, List.lookup_cons, no]

/-- A field that is left out when it is missing is read back. -/
theorem Record.withDefault?_optional {record : Record} {value : Option α}
    (field : record.fields.lookup key = value.map write)
    (back : ∀ v ∈ value, read (write v) = some v) (written : ∀ v, write v ≠ null) :
    record.withDefault? key none (Json.nullable? read) = some value := by
  rw [Record.withDefault?, field]
  cases value with
  | none => rfl
  | some v =>
    have present : Json.nullable? read (Json.nullable write (some v)) = some (some v) :=
      nullable?_nullable back written
    exact present

/-! ## Numbers in records -/

@[simp]
theorem allNumbers_string (text : String) : AllNumbers p (string text) := .string text

@[simp]
theorem allNumbers_bool (value : Bool) : AllNumbers p (bool value) := .bool value

@[simp]
theorem allNumbers_number_iff {n : Number} : AllNumbers p (number n) ↔ p n :=
  ⟨fun | .number holds => holds, .number⟩

@[simp]
theorem allNumbers_object_iff :
    AllNumbers p (object members) ↔ ∀ member ∈ members, AllNumbers p member.2 :=
  ⟨fun | .object each => each, .object⟩

theorem allNumbers_map (each : ∀ value ∈ values, AllNumbers p (write value)) :
    AllNumbers p (array (values.map write)) :=
  .array (List.forall_mem_map.mpr each)

@[simp]
theorem allNumbers_strings (texts : List String) : AllNumbers p (strings texts) :=
  allNumbers_map fun text _ => .string text

theorem allNumbers_nullable {value : Option α} (each : ∀ v ∈ value, AllNumbers p (write v)) :
    AllNumbers p (nullable write value) := by
  cases value with
  | none => exact .null
  | some v => exact each v rfl

@[simp]
theorem allNumbers_nullable_string (text : Option String) : AllNumbers p (nullable string text) :=
  allNumbers_nullable fun v _ => .string v

theorem allNumbers_ofMap {map : NameMap α}
    (each : ∀ entry ∈ map.entries, AllNumbers p (write entry.2)) :
    AllNumbers p (ofMap write map) := by
  rw [ofMap, allNumbers_object_iff]
  exact List.forall_mem_map.mpr each

theorem allNumbers_optionalMember {value : Option α}
    (each : ∀ v ∈ value, AllNumbers p (write v)) :
    ∀ member ∈ optionalMember key write value, AllNumbers p member.2 := by
  cases value with
  | none => simp [optionalMember]
  | some v => simpa [optionalMember] using each v rfl

end SqlPipeline.Json
