import Mathlib.Data.List.Nodup
import SqlPipeline.Proofs.Json.Record

/-!
# Records with a field more

Two records that differ in one field only, which may be missing from one of them, are both readable
or both not, and all other fields are read from both alike.
-/

namespace SqlPipeline.Json

variable {α : Type} {read : Json → Option α} {default : α} {value omitted written : Json}
  {front back : List (String × Json)} {names : List String} {name key : String} {listed : Bool}
  {place : Json → Json}

/-- A record without one of its fields, and the same record with a value in this field: a further
member anywhere in an object, or the next item of a list. -/
inductive Omits (names : List String) (name : String) (value : Json) : Json → Json → Prop
  | member {before after : List (String × Json)} (absent : name ∉ (before ++ after).map (·.1)) :
      Omits names name value (object (before ++ after)) (object (before ++ (name, value) :: after))
  | item {items : List Json} (next : names[items.length]? = some name) :
      Omits names name value (array items) (array (items ++ [value]))

/-- A record with a gap in place of the value of one of its fields. -/
inductive IsField (names : List String) (name : String) : (Json → Json) → Prop
  | member (before after : List (String × Json)) :
      IsField names name fun value => object (before ++ (name, value) :: after)
  | item (before after : List Json) (next : names[before.length]? = some name) :
      IsField names name fun value => array (before ++ value :: after)

/-! ## Fields beside one field -/

theorem lookup_append_cons_of_ne (apart : key ≠ name) (front back : List (String × α)) (value : α) :
    (front ++ (name, value) :: back).lookup key = (front ++ back).lookup key := by
  rw [List.lookup_append, List.lookup_append, List.lookup_cons, beq_eq_false_iff_ne.mpr apart]

theorem lookup_of_not_mem {members : List (String × α)} (absent : name ∉ members.map (·.1)) :
    members.lookup name = none := by
  rw [List.lookup_eq_none_iff]
  intro member there
  rw [bne_iff_ne]
  rintro rfl
  exact absent (List.mem_map_of_mem there)

theorem lookup_append_cons_self {front : List (String × α)} (absent : name ∉ front.map (·.1))
    (back : List (String × α)) (value : α) :
    (front ++ (name, value) :: back).lookup name = some value := by
  rw [List.lookup_append, lookup_of_not_mem absent, Option.none_or, List.lookup_cons_self]

namespace Record

theorem required?_of_ne (apart : key ≠ name) :
    required? ⟨front ++ (name, value) :: back, listed⟩ key read =
      required? ⟨front ++ back, listed⟩ key read := by
  rw [required?, required?, lookup_append_cons_of_ne apart]

theorem required?_self (absent : name ∉ front.map (·.1)) :
    required? ⟨front ++ (name, value) :: back, listed⟩ name read = read value := by
  rw [required?, lookup_append_cons_self absent, Option.bind_some]

theorem withDefault?_of_ne (apart : key ≠ name) :
    withDefault? ⟨front ++ (name, value) :: back, listed⟩ key default read =
      withDefault? ⟨front ++ back, listed⟩ key default read := by
  rw [withDefault?, withDefault?, lookup_append_cons_of_ne apart]

theorem withDefault?_self (absent : name ∉ front.map (·.1)) :
    withDefault? ⟨front ++ (name, value) :: back, listed⟩ name default read = read value := by
  rw [withDefault?, lookup_append_cons_self absent]

theorem withDefault?_of_absent (absent : name ∉ (front ++ back).map (·.1)) :
    withDefault? ⟨front ++ back, listed⟩ name default read = some default := by
  rw [withDefault?, lookup_of_not_mem absent]

/-- A field that reads as its default may be left out. -/
theorem withDefault?_of_default (absent : name ∉ (front ++ back).map (·.1))
    (same : key = name → read value = some default) :
    withDefault? ⟨front ++ (name, value) :: back, listed⟩ key default read =
      withDefault? ⟨front ++ back, listed⟩ key default read := by
  by_cases here : key = name
  · subst here
    have before : key ∉ front.map (·.1) := fun there =>
      absent (List.map_append ▸ List.mem_append_left _ there)
    rw [withDefault?_self before, withDefault?_of_absent absent, same rfl]
  · exact withDefault?_of_ne here

end Record

/-! ## Reading both records -/

/-- The names before and after the one that an item of a list stands for. -/
theorem exists_names {items : List Json} (next : names[items.length]? = some name)
    (distinct : names.Nodup) : ∃ before after, names = before ++ name :: after ∧
      before.length = items.length ∧ name ∉ before := by
  obtain ⟨short, same⟩ := List.getElem?_eq_some_iff.mp next
  have parts : names = names.take items.length ++ name :: names.drop (items.length + 1) := by
    rw [← same, List.getElem_cons_drop, List.take_append_drop]
  refine ⟨_, _, parts, by rw [List.length_take]; omega, fun earlier => ?_⟩
  rw [parts, List.nodup_middle, List.nodup_cons] at distinct
  exact distinct.1 (List.mem_append_left _ earlier)

theorem not_mem_map_zip {items : List Json} {before : List String} (absent : name ∉ before) :
    name ∉ (before.zip items).map (·.1) := by
  intro member
  obtain ⟨⟨key, item⟩, there, rfl⟩ := List.mem_map.mp member
  exact absent (List.of_mem_zip there).1

/-- The members of an object that are fields of a record. -/
def known (names : List String) (members : List (String × Json)) : List (String × Json) :=
  members.filter fun member => names.contains member.1

theorem known_append (first second : List (String × Json)) :
    known names (first ++ second) = known names first ++ known names second :=
  List.filter_append first second

theorem known_cons (field : name ∈ names) (members : List (String × Json)) :
    known names ((name, value) :: members) = (name, value) :: known names members :=
  List.filter_cons_of_pos (List.contains_iff_mem.mpr field)

theorem Record.read?_known (surplus : Bool) (members : List (String × Json)) :
    Record.read? surplus names (object members) =
      if ((known names members).map (·.1)).Nodup then some ⟨known names members, false⟩ else none :=
  rfl

theorem map_fst_middle (front back : List (String × Json)) (name : String) (value : Json) :
    (front ++ (name, value) :: back).map (·.1) = front.map (·.1) ++ name :: back.map (·.1) := by
  rw [List.map_append, List.map_cons]

/-- A record is readable with a field left out just if it is with the field, and then this field
is all that is added. -/
theorem Omits.exists_fields (omits : Omits names name value omitted written)
    (distinct : names.Nodup) (field : name ∈ names) (surplus : Bool) :
    (Record.read? surplus names omitted = none ∧ Record.read? surplus names written = none) ∨
      ∃ front back listed, name ∉ (front ++ back).map (·.1) ∧
        Record.read? surplus names omitted = some ⟨front ++ back, listed⟩ ∧
        Record.read? surplus names written = some ⟨front ++ (name, value) :: back, listed⟩ := by
  cases omits with
  | @member before after absent =>
    have absent' : name ∉ (known names before ++ known names after).map (·.1) := by
      rw [← known_append]
      exact fun there => absent ((List.filter_sublist.map _).subset there)
    have same : ((known names before ++ (name, value) :: known names after).map (·.1)).Nodup ↔
        ((known names before ++ known names after).map (·.1)).Nodup := by
      rw [map_fst_middle, List.nodup_middle, ← List.map_append, List.nodup_cons]
      exact and_iff_right absent'
    rw [Record.read?_known, Record.read?_known, known_append, known_append, known_cons field]
    by_cases apart : ((known names before ++ known names after).map (·.1)).Nodup
    · exact .inr ⟨_, _, false, absent', if_pos apart, if_pos (same.mpr apart)⟩
    · exact .inl ⟨if_neg apart, if_neg (mt same.mp apart)⟩
  | @item items next =>
    obtain ⟨before, after, rfl, length, absent⟩ := exists_names next distinct
    have fields : (before ++ name :: after).zip items = before.zip items ++ [] :=
      calc (before ++ name :: after).zip items
          = (before ++ name :: after).zip (items ++ []) := by rw [List.append_nil]
        _ = before.zip items ++ [] := by rw [List.zip_append length, List.zip_nil_right]
    have fields' : (before ++ name :: after).zip (items ++ [value]) =
        before.zip items ++ [(name, value)] := by
      rw [List.zip_append length, List.zip_cons_cons, List.zip_nil_right]
    have short : items.length + 1 ≤ (before ++ name :: after).length := by
      rw [List.length_append, List.length_cons]
      omega
    refine .inr ⟨before.zip items, [], true, ?_, ?_, ?_⟩
    · rw [List.append_nil]
      exact not_mem_map_zip absent
    · rw [Record.read?, fields, decide_eq_true (Nat.le_of_succ_le short)]
      rfl
    · rw [Record.read?, fields', List.length_append, List.length_singleton, decide_eq_true short]
      rfl

/-- Whether a record is readable does not depend on the value of a field, which is all that changes
with it. -/
theorem IsField.exists_fields (gap : IsField names name place) (distinct : names.Nodup)
    (field : name ∈ names) (surplus : Bool) :
    (∀ value, Record.read? surplus names (place value) = none) ∨
      ∃ front back listed, name ∉ front.map (·.1) ∧ ∀ value,
        Record.read? surplus names (place value) =
          some ⟨front ++ (name, value) :: back, listed⟩ := by
  cases gap with
  | member before after =>
    have fields : ∀ value, known names (before ++ (name, value) :: after) =
        known names before ++ (name, value) :: known names after := by
      intro value
      rw [known_append, known_cons field]
    by_cases apart :
        ((known names before).map (·.1) ++ name :: (known names after).map (·.1)).Nodup
    · refine .inr ⟨known names before, known names after, false, ?_, fun value => ?_⟩
      · rw [List.nodup_middle, List.nodup_cons] at apart
        exact fun there => apart.1 (List.mem_append_left _ there)
      · rw [Record.read?_known, fields, map_fst_middle, if_pos apart]
    · refine .inl fun value => ?_
      rw [Record.read?_known, fields, map_fst_middle, if_neg apart]
  | item items others next =>
    obtain ⟨before, after, rfl, length, absent⟩ := exists_names next distinct
    have fields : ∀ value, (before ++ name :: after).zip (items ++ value :: others) =
        before.zip items ++ (name, value) :: after.zip others := by
      intro value
      rw [List.zip_append length, List.zip_cons_cons]
    by_cases short : items.length + (others.length + 1) ≤ (before ++ name :: after).length ∨ surplus
    · refine .inr ⟨before.zip items, after.zip others, true, not_mem_map_zip absent,
        fun value => ?_⟩
      rw [Record.read?, fields, if_pos]
      simpa using short
    · refine .inl fun value => ?_
      rw [Record.read?, if_neg]
      simpa using short

variable {β : Type} {one : Record → Option α} {other : Record → Option β} {adapt : α → β}

/-- What is read from a record with a field more follows from what is read without it, if it does
for the fields. -/
theorem Omits.bind_eq_map (omits : Omits names name value omitted written)
    (distinct : names.Nodup) (field : name ∈ names) (surplus : Bool)
    (same : ∀ front back listed, name ∉ (front ++ back).map (·.1) →
      other ⟨front ++ (name, value) :: back, listed⟩ = (one ⟨front ++ back, listed⟩).map adapt) :
    (Record.read? surplus names written).bind other =
      ((Record.read? surplus names omitted).bind one).map adapt := by
  rcases omits.exists_fields distinct field surplus with
    ⟨unread, unread'⟩ | ⟨front, back, listed, absent, fields, fields'⟩
  · rw [unread, unread']
    rfl
  · rw [fields, fields']
    exact same front back listed absent

/-- What is read from a record with another value in a field follows from what is read with the
first one, if it does for the fields. -/
theorem IsField.bind_eq_map (gap : IsField names name place) (distinct : names.Nodup)
    (field : name ∈ names) (surplus : Bool)
    (same : ∀ front back listed, name ∉ front.map (·.1) →
      other ⟨front ++ (name, written) :: back, listed⟩ =
        (one ⟨front ++ (name, omitted) :: back, listed⟩).map adapt) :
    (Record.read? surplus names (place written)).bind other =
      ((Record.read? surplus names (place omitted)).bind one).map adapt := by
  rcases gap.exists_fields distinct field surplus with
    unread | ⟨front, back, listed, absent, fields⟩
  · rw [unread, unread]
    rfl
  · rw [fields, fields]
    exact same front back listed absent

/-- What reads the same from the fields reads the same from both records. -/
theorem Omits.bind_eq (omits : Omits names name value omitted written) (distinct : names.Nodup)
    (field : name ∈ names) (surplus : Bool)
    (same : ∀ front back listed, name ∉ (front ++ back).map (·.1) →
      one ⟨front ++ (name, value) :: back, listed⟩ = one ⟨front ++ back, listed⟩) :
    (Record.read? surplus names written).bind one =
      (Record.read? surplus names omitted).bind one := by
  have adapted : (Record.read? surplus names written).bind one =
      ((Record.read? surplus names omitted).bind one).map id :=
    omits.bind_eq_map distinct field surplus fun front back listed absent => by
      rw [same front back listed absent, Option.map_id, id]
  rw [adapted, Option.map_id, id]

/-- What reads the same from the fields for two values of one of them reads the same from both
records. -/
theorem IsField.bind_eq (gap : IsField names name place) (distinct : names.Nodup)
    (field : name ∈ names) (surplus : Bool)
    (same : ∀ front back listed, name ∉ front.map (·.1) →
      one ⟨front ++ (name, written) :: back, listed⟩ =
        one ⟨front ++ (name, omitted) :: back, listed⟩) :
    (Record.read? surplus names (place written)).bind one =
      (Record.read? surplus names (place omitted)).bind one := by
  have adapted : (Record.read? surplus names (place written)).bind one =
      ((Record.read? surplus names (place omitted)).bind one).map id :=
    gap.bind_eq_map distinct field surplus fun front back listed absent => by
      rw [same front back listed absent, Option.map_id, id]
  rw [adapted, Option.map_id, id]

end SqlPipeline.Json
