import SqlPipeline.Proofs.Success
import SqlPipeline.Relation

/-!
# Relations are told apart by their texts

Whether a relation can be written depends on the lengths of the segments that it lists and on
nothing else.  Inside of quotes every quote is one of two, so a quote that stands alone ends its
segment whatever the segment holds, and the list of segments can be read off the text.
-/

namespace SqlPipeline.Relation

variable {relation other : Relation} {name text : String} {segments : List (String × Bool)}

/-- The segments that are there and included: of database, schema and identifier, in this order. -/
def listed (relation : Relation) : List String :=
  [(relation.path.database, relation.included.database),
    (relation.path.schema, relation.included.schema),
    (relation.path.identifier, relation.included.identifier)].filterMap fun segment =>
      if segment.2 then segment.1 else none

/-- Every segment that is written is quoted. -/
def IsQuoted (relation : Relation) : Prop := ∀ segment ∈ relation.segments, segment.2 = true

instance : Decidable relation.IsQuoted :=
  inferInstanceAs (Decidable (∀ segment ∈ relation.segments, segment.2 = true))

/-- A segment as it is written if it is not too long. -/
def written (segment : String × Bool) : String :=
  if segment.2 then quoteIdentifier segment.1 else segment.1

theorem map_fst_segments (relation : Relation) : relation.segments.map (·.1) = relation.listed := by
  obtain ⟨⟨database, schema, identifier⟩, ⟨first, second, third⟩, quoted⟩ := relation
  cases database <;> cases first <;> cases schema <;> cases second <;> cases identifier <;>
    cases third <;> rfl

/-! ## When a relation can be written -/

/-- The first segment that is too long decides. -/
theorem mapM_renderSegment (segments : List (String × Bool)) :
    segments.mapM renderSegment =
      match (segments.map (·.1)).find? (maxLength < ·.length) with
      | some name => .error (.identifierTooLong name)
      | none => .ok (segments.map written) := by
  induction segments with
  | nil => rfl
  | cons segment segments ih =>
    rw [List.mapM_cons, List.map_cons, List.find?_cons, renderSegment]
    by_cases long : maxLength < segment.1.length
    · simp [long, bind, Except.bind]
    · simp only [long, decide_false, if_false, ih]
      cases (segments.map (·.1)).find? (maxLength < ·.length) <;> rfl

theorem render_eq (relation : Relation) :
    relation.render =
      match relation.listed.find? (maxLength < ·.length) with
      | some name => .error (.identifierTooLong name)
      | none =>
        if relation.listed = [] then .error .empty
        else .ok (".".intercalate (relation.segments.map written)) := by
  rw [render, mapM_renderSegment, map_fst_segments]
  cases relation.listed.find? (maxLength < ·.length) with
  | some name => rfl
  | none =>
    have same : (relation.segments.map written).isEmpty = true ↔ relation.listed = [] := by
      rw [List.isEmpty_iff, List.map_eq_nil_iff, ← map_fst_segments, List.map_eq_nil_iff]
    simp [bind, Except.bind, ← same]

theorem render_eq_tooLong_iff :
    relation.render = .error (.identifierTooLong name) ↔
      ∃ before after, relation.listed = before ++ name :: after ∧ maxLength < name.length ∧
        ∀ segment ∈ before, segment.length ≤ maxLength := by
  have first : relation.render = .error (.identifierTooLong name) ↔
      relation.listed.find? (maxLength < ·.length) = some name := by
    rw [render_eq]
    cases found : relation.listed.find? (maxLength < ·.length) with
    | some found => simp
    | none =>
      dsimp only
      split <;> simp
  rw [first, List.find?_eq_some_iff_append]
  simp only [decide_eq_true_eq, Bool.not_eq_true', decide_eq_false_iff_not, Nat.not_lt]
  constructor
  · rintro ⟨long, before, after, parts, short⟩
    exact ⟨before, after, parts, long, short⟩
  · rintro ⟨before, after, parts, long, short⟩
    exact ⟨long, before, after, parts, short⟩

theorem render_eq_empty_iff : relation.render = .error .empty ↔ relation.listed = [] := by
  rw [render_eq]
  constructor
  · intro fails
    split at fails
    · cases fails
    · split at fails
      next none => exact none
      next => cases fails
  · intro none
    rw [none]
    rfl

theorem render_eq_ok_iff :
    relation.render = .ok text ↔
      relation.listed ≠ [] ∧ (∀ segment ∈ relation.listed, segment.length ≤ maxLength) ∧
        text = ".".intercalate (relation.segments.map written) := by
  have short : (∀ segment ∈ relation.listed, segment.length ≤ maxLength) ↔
      relation.listed.find? (maxLength < ·.length) = none := by
    simp [List.find?_eq_none]
  rw [short, render_eq]
  cases relation.listed.find? (maxLength < ·.length) with
  | some name => simp
  | none =>
    by_cases none : relation.listed = []
    · simp [none]
    · simp [none, eq_comm]

/-! ## Reading the segments back -/

/-- A character between quotes. -/
def doubled (c : Char) : List Char := if c = '"' then ['"', '"'] else [c]

/-- The segments of a text whose first one is open, with the part of it that has been read. -/
def segmentsFrom? (read : List Char) : List Char → Option (List (List Char))
  | [] => none
  | ['"'] => some [read]
  | '"' :: '"' :: rest => segmentsFrom? (read ++ ['"']) rest
  | '"' :: '.' :: '"' :: rest => (segmentsFrom? [] rest).map (read :: ·)
  | c :: rest => if c = '"' then none else segmentsFrom? (read ++ [c]) rest

/-- The segments that a text of quoted segments is written for. -/
def decode? (text : String) : Option (List String) :=
  match text.toList with
  | '"' :: rest => (segmentsFrom? [] rest).map (·.map String.ofList)
  | _ => none

theorem segmentsFrom?_of_ne {c : Char} (plain : c ≠ '"') (read rest : List Char) :
    segmentsFrom? read (c :: rest) = segmentsFrom? (read ++ [c]) rest := by
  rw [segmentsFrom?, if_neg plain]
  all_goals simp [plain]

/-- What stands between the quotes is read as the segment, whatever comes after them. -/
theorem segmentsFrom?_doubled (read segment rest : List Char) :
    segmentsFrom? read (segment.flatMap doubled ++ '"' :: rest) =
      segmentsFrom? (read ++ segment) ('"' :: rest) := by
  induction segment generalizing read with
  | nil => simp
  | cons c segment ih =>
    by_cases quote : c = '"'
    · subst quote
      rw [List.flatMap_cons, doubled, if_pos rfl]
      simp only [List.cons_append, List.nil_append, segmentsFrom?, ih, List.append_assoc]
    · rw [List.flatMap_cons, doubled, if_neg quote]
      simp only [List.cons_append, List.nil_append, segmentsFrom?_of_ne quote, ih,
        List.append_assoc]

theorem toList_quoteIdentifier (segment : String) :
    (quoteIdentifier segment).toList = '"' :: (segment.toList.flatMap doubled ++ ['"']) := by
  rw [quoteIdentifier, String.toList_ofList]
  rfl

/-- A text of quoted segments is read as these segments. -/
theorem decode?_quoted {names : List String} (nonempty : names ≠ []) :
    decode? (".".intercalate (names.map quoteIdentifier)) = some names := by
  obtain ⟨name, names, rfl⟩ := List.exists_cons_of_ne_nil nonempty
  have inside : ∀ (names : List String) (name : String), ∃ rest,
      (".".intercalate ((name :: names).map quoteIdentifier)).toList = '"' :: rest ∧
        segmentsFrom? [] rest = some ((name :: names).map String.toList) := by
    intro names
    induction names with
    | nil =>
      intro name
      refine ⟨name.toList.flatMap doubled ++ ['"'], ?_, ?_⟩
      · simp [toList_quoteIdentifier]
      · rw [segmentsFrom?_doubled]
        rfl
    | cons next names ih =>
      intro name
      obtain ⟨rest, text, read⟩ := ih next
      refine ⟨name.toList.flatMap doubled ++ '"' :: '.' :: '"' :: rest, ?_, ?_⟩
      · rw [String.toList_intercalate] at text ⊢
        simp only [List.map_cons, List.intercalate_cons_cons] at text ⊢
        rw [text, toList_quoteIdentifier]
        simp
      · rw [segmentsFrom?_doubled, segmentsFrom?, read]
        rfl
  obtain ⟨rest, text, read⟩ := inside names name
  rw [decode?, text]
  simp only [read, Option.map_some, List.map_map]
  simp

theorem render_quoted_iff (quoted : relation.IsQuoted) :
    relation.render = .ok text ↔
      relation.listed ≠ [] ∧ (∀ segment ∈ relation.listed, segment.length ≤ maxLength) ∧
        text = ".".intercalate (relation.listed.map quoteIdentifier) := by
  have same : relation.segments.map written = relation.listed.map quoteIdentifier := by
    rw [← map_fst_segments, List.map_map]
    refine List.map_congr_left fun segment member => ?_
    rw [written, if_pos (quoted segment member)]
    rfl
  rw [render_eq_ok_iff, same]

/-- A relation is refused for the first segment that is too long, or because it lists none, and is
written otherwise.  From the text of a relation whose segments are quoted the list of its segments
is read back, so two such relations have one text just if they list the same segments. -/
theorem render_tells_apart (relation : Relation) :
    (∀ name, relation.render = .error (.identifierTooLong name) ↔
      ∃ before after, relation.listed = before ++ name :: after ∧ maxLength < name.length ∧
        ∀ segment ∈ before, segment.length ≤ maxLength) ∧
    (relation.render = .error .empty ↔ relation.listed = []) ∧
    ((∃ text, relation.render = .ok text) ↔
      relation.listed ≠ [] ∧ ∀ segment ∈ relation.listed, segment.length ≤ maxLength) ∧
    (relation.IsQuoted → ∀ text, relation.render = .ok text →
      decode? text = some relation.listed ∧
      ∀ other : Relation, other.IsQuoted →
        (other.render = .ok text ↔ other.listed = relation.listed)) := by
  refine ⟨fun name => render_eq_tooLong_iff, render_eq_empty_iff, ?_, fun quoted text run => ?_⟩
  · simp only [render_eq_ok_iff]
    constructor
    · rintro ⟨text, nonempty, short, -⟩
      exact ⟨nonempty, short⟩
    · rintro ⟨nonempty, short⟩
      exact ⟨_, nonempty, short, rfl⟩
  · obtain ⟨nonempty, short, rfl⟩ := (render_quoted_iff quoted).mp run
    refine ⟨decode?_quoted nonempty, fun other others => ?_⟩
    rw [render_quoted_iff others]
    constructor
    · rintro ⟨there, -, same⟩
      have read := decode?_quoted there
      rw [← same, decode?_quoted nonempty] at read
      exact (Option.some.inj read).symm
    · intro same
      rw [same]
      exact ⟨nonempty, short, rfl⟩

/-- Three segments that hold points and quotes, the second one a lone quote. -/
def dotted : Relation :=
  ⟨⟨some "a\".\"b", some "\"", some ".c\""⟩, .all, .all⟩

/-- They are read back from their text as they were. -/
theorem render_tells_apart_dotted :
    ∃ text, dotted.render = .ok text ∧ decode? text = some ["a\".\"b", "\"", ".c\""] := by
  obtain ⟨-, -, writes, reads⟩ := render_tells_apart dotted
  obtain ⟨text, run⟩ := writes.mpr (by decide)
  exact ⟨text, run, (reads (by decide) text run).1⟩

end SqlPipeline.Relation
