import SqlPipeline.Proofs.Json.Literal

/-!
# Reading back what was written

A value is read back from its text on several lines, provided that its numbers are: the indentation
makes no difference, and whatever follows a value ends it.
-/

namespace SqlPipeline.Json

variable {p : Number → Prop} {value item : Json} {items : List Json}
  {members : List (String × Json)} {blanks text rest : List Char} {level outer fuel : Nat}

/-- All numbers in a value have a property. -/
inductive AllNumbers (p : Number → Prop) : Json → Prop
  | null : AllNumbers p .null
  | bool (value : Bool) : AllNumbers p (.bool value)
  | number {n : Number} (holds : p n) : AllNumbers p (.number n)
  | string (text : String) : AllNumbers p (.string text)
  | array {items : List Json} (each : ∀ item ∈ items, AllNumbers p item) :
      AllNumbers p (.array items)
  | object {members : List (String × Json)} (each : ∀ member ∈ members, AllNumbers p member.2) :
      AllNumbers p (.object members)

/-! ## Blanks -/

theorem skipSpace_append (blank : ∀ c ∈ blanks, isSpace c = true) (text : List Char) :
    skipSpace (blanks ++ text) = skipSpace text := by
  rw [skipSpace, List.dropWhile_append_of_pos blank]
  rfl

theorem skipSpace_of_not {c : Char} (visible : isSpace c = false) (text : List Char) :
    skipSpace (c :: text) = c :: text := by
  rw [skipSpace, List.dropWhile_cons, visible]
  rfl

theorem isSpace_newline (level : Nat) : ∀ c ∈ newline level, isSpace c = true := by
  intro c member
  rcases List.mem_cons.mp member with rfl | blank
  · rfl
  · rw [List.eq_of_mem_replicate blank]
    rfl

theorem value?_blanks (blank : ∀ c ∈ blanks, isSpace c = true) (fuel : Nat) (text : List Char) :
    value? fuel (blanks ++ text) = value? fuel text := by
  cases fuel with
  | zero => rfl
  | succ fuel => rw [value?, value?, skipSpace_append blank]

theorem items?_blanks (blank : ∀ c ∈ blanks, isSpace c = true) (fuel : Nat) (text : List Char) :
    items? fuel (blanks ++ text) = items? fuel text := by
  cases fuel with
  | zero => rfl
  | succ fuel => rw [items?, items?, value?_blanks blank]

theorem members?_blanks (blank : ∀ c ∈ blanks, isSpace c = true) (fuel : Nat) (text : List Char) :
    members? fuel (blanks ++ text) = members? fuel text := by
  cases fuel with
  | zero => rfl
  | succ fuel => rw [members?, members?, skipSpace_append blank]

/-! ## Values -/

/-- What follows a value inside another one. -/
def Follows (text : List Char) : Prop := ∀ c ∈ text.head?, c = ',' ∨ c = '\n'

theorem follows_nil : Follows [] := by simp [Follows]

theorem follows_comma (text : List Char) : Follows (',' :: text) := by simp [Follows]

theorem follows_newline (level : Nat) (text : List Char) : Follows (newline level ++ text) := by
  simp [Follows, newline]

theorem Follows.stopsAt (follows : Follows rest) : StopsAt extendsNumber rest := by
  intro c front
  rcases follows c front with rfl | rfl
  · rfl
  · rfl

/-- A value is read back wherever it stands, with enough fuel. -/
def IsRead (value : Json) : Prop :=
  ∀ level fuel rest, Follows rest → (prettyChars level value).length ≤ fuel →
    value? fuel (prettyChars level value ++ rest) = some (value, rest)

/-- A text that begins with a sign or a digit is read as a number. -/
theorem value?_numeric {c : Char} (numeric : c = '-' ∨ c.isDigit = true) :
    value? (fuel + 1) (c :: text) = (number? (c :: text)).map fun read =>
      ((read.1.map number).getD unreadable, read.2) := by
  have apart : ∀ d : Char, d ≠ '-' → d.isDigit = false → c ≠ d := by
    rintro d sign other rfl
    rcases numeric with rfl | digit
    · exact sign rfl
    · rw [other] at digit
      cases digit
  have visible : isSpace c = false := by
    simp only [isSpace, Bool.or_eq_false_iff, beq_eq_false_iff_ne]
    exact ⟨⟨⟨apart _ (by decide) rfl, apart _ (by decide) rfl⟩, apart _ (by decide) rfl⟩,
      apart _ (by decide) rfl⟩
  rw [value?, skipSpace_of_not visible]
  split
  case h_8 => rfl
  case h_1 none => cases none
  all_goals
    next other => exact absurd (List.cons.inj other).1 (apart _ (by decide) rfl)

theorem exists_prettyChars (reads : value.AllNumbers Number.ReadsBack) (level : Nat) :
    ∃ first others, prettyChars level value = first :: others ∧ isSpace first = false ∧
      first ≠ ']' := by
  cases reads with
  | null => exact ⟨_, _, rfl, rfl, by decide⟩
  | bool value => cases value <;> exact ⟨_, _, rfl, rfl, by decide⟩
  | number holds =>
    obtain ⟨first, others, text, numeric⟩ := exists_of_number? holds
    refine ⟨first, others, by rw [prettyChars, text], ?_⟩
    rcases numeric with rfl | digit
    · decide
    · constructor
      · by_contra space
        simp only [isSpace, Bool.not_eq_false, Bool.or_eq_true, beq_iff_eq] at space
        rcases space with ((rfl | rfl) | rfl) | rfl <;> cases digit
      · rintro rfl
        cases digit
  | string text => exact ⟨_, _, rfl, rfl, by decide⟩
  | @array items => cases items <;> exact ⟨_, _, rfl, rfl, by decide⟩
  | @object members => cases members <;> exact ⟨_, _, rfl, rfl, by decide⟩

/-- The items of an array are read back up to the bracket that closes it. -/
theorem items?_pretty (each : ∀ other ∈ item :: items, IsRead other)
    (enough : (prettyChars level item).length + (prettyItems level items).length < fuel) :
    items? fuel (prettyChars level item ++ (prettyItems level items ++
      (newline outer ++ ']' :: rest))) = some (item :: items, rest) := by
  induction items generalizing item fuel with
  | nil =>
    obtain ⟨fuel, rfl⟩ : ∃ less, fuel = less + 1 := ⟨fuel - 1, by omega⟩
    have here := each item List.mem_cons_self level fuel _
      (follows_newline outer (']' :: rest)) (by omega)
    rw [items?, prettyItems, List.nil_append, here, Option.bind_eq_bind, Option.bind_some]
    dsimp only
    rw [skipSpace_append (isSpace_newline outer), skipSpace_of_not rfl]
    rfl
  | cons next items ih =>
    obtain ⟨fuel, rfl⟩ : ∃ less, fuel = less + 1 := ⟨fuel - 1, by omega⟩
    simp only [prettyItems, List.length_append, List.length_cons, newline] at enough
    have here := each item List.mem_cons_self level fuel _
      (follows_comma (newline level ++ (prettyChars level next ++ (prettyItems level items ++
        (newline outer ++ ']' :: rest))))) (by omega)
    have later := ih (fun other member => each other (List.mem_cons_of_mem item member))
      (show _ < fuel by omega)
    rw [items?, prettyItems]
    simp only [List.append_assoc, List.cons_append, List.nil_append]
    rw [here, Option.bind_eq_bind, Option.bind_some]
    dsimp only
    rw [skipSpace_of_not rfl]
    simp [items?_blanks (isSpace_newline level), later]

/-- A key is read back from its place before a colon. -/
theorem stringTail?_key (key : String) (text : List Char)
    (enough : (stringChars key).length ≤ fuel + 1) :
    ∃ first, stringChars key ++ text = '"' :: first ∧
      stringTail? fuel first = some (some key.toList, text) := by
  refine ⟨key.toList.flatMap stringChar ++ '"' :: text, by simp [stringChars], ?_⟩
  have long := length_le_flatMap_stringChar key.toList
  simp only [stringChars, List.length_append, List.length_cons, List.length_nil] at enough
  exact stringTail?_chars _ _ (by omega)

/-- A member is read back, and what follows its value decides whether another one is read. -/
theorem members?_member {key : String} (isRead : IsRead value) (follows : Follows rest)
    (enough : (stringChars key).length + (prettyChars level value).length ≤ fuel) :
    members? (fuel + 1) (stringChars key ++ ([':', ' '] ++ (prettyChars level value ++ rest))) =
      match skipSpace rest with
      | ',' :: rest => do
        let (members, rest) ← members? fuel rest
        some ((some key, value) :: members, rest)
      | '\x7d' :: rest => some ([(some key, value)], rest)
      | _ => none := by
  obtain ⟨first, opened, read⟩ := @stringTail?_key fuel key
    ([':', ' '] ++ (prettyChars level value ++ rest)) (by omega)
  have blank : ∀ c ∈ [' '], isSpace c = true := by simp [isSpace]
  have here := isRead level fuel rest follows (by omega)
  rw [← value?_blanks blank, List.singleton_append] at here
  have named : (some key.toList).map String.ofList = some key := by simp
  rw [members?, opened, skipSpace_of_not rfl]
  simp only [read, List.cons_append, List.nil_append, Option.bind_eq_bind, Option.bind_some]
  rw [skipSpace_of_not rfl]
  simp only [here, named]
  rfl

/-- The members of an object are read back up to the brace that closes it. -/
theorem members?_pretty {key : String} (each : ∀ member ∈ (key, value) :: members, IsRead member.2)
    (enough : (stringChars key).length + (prettyChars level value).length +
      (prettyMembers level members).length < fuel) :
    members? fuel (stringChars key ++ ([':', ' '] ++ (prettyChars level value ++
      (prettyMembers level members ++ (newline outer ++ '\x7d' :: rest))))) =
      some (((key, value) :: members).map fun member => (some member.1, member.2), rest) := by
  induction members generalizing key value fuel with
  | nil =>
    obtain ⟨fuel, rfl⟩ : ∃ less, fuel = less + 1 := ⟨fuel - 1, by omega⟩
    have isRead : IsRead value := each _ List.mem_cons_self
    rw [prettyMembers, List.nil_append, members?_member isRead
      (follows_newline outer _) (by omega), skipSpace_append (isSpace_newline outer),
      skipSpace_of_not rfl]
    rfl
  | cons next members ih =>
    obtain ⟨fuel, rfl⟩ : ∃ less, fuel = less + 1 := ⟨fuel - 1, by omega⟩
    obtain ⟨key', value'⟩ := next
    simp only [prettyMembers, List.length_append, List.length_cons, newline] at enough
    have isRead : IsRead value := each _ List.mem_cons_self
    have later := @ih value' fuel key'
      (fun member present => each member (List.mem_cons_of_mem _ present)) (by omega)
    rw [prettyMembers]
    simp only [List.append_assoc]
    rw [@List.singleton_append _ ',', members?_member isRead (follows_comma _) (by omega),
      skipSpace_of_not rfl]
    simp only [members?_blanks (isSpace_newline level)]
    rw [later]
    rfl

/-- The members with names make up an object. -/
theorem ofMembers_some (members : List (String × Json)) :
    ofMembers (members.map fun member => (some member.1, member.2)) = object members := by
  have named : (members.map fun member => (some member.1, member.2)).mapM
      (fun entry : Option String × Json => entry.1.map (·, entry.2)) = some members := by
    induction members with
    | nil => rfl
    | cons member members ih => simp [ih]
  rw [ofMembers, named]

/-- After the bracket that opens an array with items, the first of them follows. -/
theorem value?_bracket {first : Char} (blank : ∀ c ∈ blanks, isSpace c = true)
    (visible : isSpace first = false) (opened : first ≠ ']') :
    value? (fuel + 1) ('[' :: (blanks ++ first :: text)) =
      (items? fuel (first :: text)).map fun read => (array read.1, read.2) := by
  rw [value?, skipSpace_of_not rfl]
  simp only [skipSpace_append blank, skipSpace_of_not visible]
  split
  next closed => exact absurd (List.cons.inj closed).1 opened
  · cases items? fuel (first :: text) <;> rfl

/-- After the brace that opens an object with members, the key of the first of them follows. -/
theorem value?_brace (blank : ∀ c ∈ blanks, isSpace c = true) :
    value? (fuel + 1) ('\x7b' :: (blanks ++ '"' :: text)) =
      (members? fuel ('"' :: text)).map fun read => (ofMembers read.1, read.2) := by
  have quote : isSpace '"' = false := rfl
  rw [value?, skipSpace_of_not rfl]
  simp only [skipSpace_append blank, skipSpace_of_not quote]
  split
  next closed => cases closed
  · cases members? fuel ('"' :: text) <;> rfl

/-- No value has an empty text, so reading one takes some fuel. -/
theorem exists_fuel (reads : value.AllNumbers Number.ReadsBack)
    (enough : (prettyChars level value).length ≤ fuel) : ∃ less, fuel = less + 1 := by
  obtain ⟨first, others, text, -⟩ := exists_prettyChars reads level
  rw [text, List.length_cons] at enough
  exact ⟨fuel - 1, by omega⟩

/-- A value is read back from its place inside another one when its numbers are. -/
theorem isRead_of_allNumbers (reads : value.AllNumbers Number.ReadsBack) : IsRead value := by
  induction reads with
  | null =>
    intro level fuel rest _ enough
    obtain ⟨fuel, rfl⟩ := exists_fuel .null enough
    rfl
  | bool value =>
    intro level fuel rest _ enough
    obtain ⟨fuel, rfl⟩ := exists_fuel (.bool value) enough
    cases value <;> rfl
  | @number n holds =>
    intro level fuel rest follows enough
    obtain ⟨fuel, rfl⟩ := exists_fuel (.number holds) enough
    obtain ⟨first, others, text, numeric⟩ := exists_of_number? holds
    have read := number?_append follows.stopsAt holds
    rw [prettyChars]
    rw [text] at read ⊢
    rw [List.cons_append, value?_numeric numeric, ← List.cons_append, read]
    rfl
  | string text =>
    intro level fuel rest _ enough
    obtain ⟨fuel, rfl⟩ := exists_fuel (.string text) enough
    rw [prettyChars] at enough ⊢
    obtain ⟨first, opened, read⟩ := stringTail?_key text rest enough
    rw [opened, value?, skipSpace_of_not rfl]
    simp [read]
  | @array items each ih =>
    intro level fuel rest _ enough
    obtain ⟨fuel, rfl⟩ := exists_fuel (.array each) enough
    cases items with
    | nil => rfl
    | cons item items =>
      obtain ⟨first, others, text, visible, opened⟩ :=
        exists_prettyChars (each item List.mem_cons_self) (level + 1)
      simp only [prettyChars, List.length_append, List.length_cons, newline] at enough
      have read := @items?_pretty item items rest (level + 1) level fuel ih (by omega)
      rw [prettyChars]
      simp only [List.append_assoc, List.singleton_append]
      rw [text, List.cons_append] at read ⊢
      rw [List.cons_append, value?_bracket (isSpace_newline _) visible opened, read]
      rfl
  | @object members each ih =>
    intro level fuel rest _ enough
    obtain ⟨fuel, rfl⟩ := exists_fuel (.object each) enough
    cases members with
    | nil => rfl
    | cons member members =>
      obtain ⟨key, value⟩ := member
      simp only [prettyChars, List.length_append, List.length_cons, newline] at enough
      have read := @members?_pretty value members rest (level + 1) level fuel key ih (by omega)
      rw [prettyChars]
      simp only [List.append_assoc]
      rw [@List.singleton_append _ '\x7b', @List.singleton_append _ '\x7d']
      obtain ⟨first, opened, -⟩ := @stringTail?_key fuel key ([':', ' '] ++
        (prettyChars (level + 1) value ++ (prettyMembers (level + 1) members ++
          (newline level ++ '\x7d' :: rest)))) (by omega)
      rw [opened] at read ⊢
      rw [value?_brace (isSpace_newline _), read, Option.map_some, ofMembers_some]

/-- A value is read back from its text when its numbers are. -/
theorem read?_pretty (reads : value.AllNumbers Number.ReadsBack) :
    read? (pretty value) = some value := by
  have back := isRead_of_allNumbers reads 0 (2 * (prettyChars 0 value).length + 2) [] follows_nil
    (by omega)
  rw [List.append_nil] at back
  rw [read?, pretty, String.toList_ofList, back]
  rfl

end SqlPipeline.Json
