import SqlPipeline.Build.Materialization
import SqlPipeline.Proofs.Text.Trimming

/-!
# Selects in statements

The select that is put into a statement is the text of the model without blanks around it and
without one run of semicolons at its end.  It is trimmed in every case, but where blanks part the
last run of semicolons from an earlier one, the earlier one stays: the select ends with a semicolon
then, and taking it as the text of a model once more gives another statement.
-/

namespace SqlPipeline

open Text

variable {sql : String} {text : List Char}

/-! ## What is taken away -/

theorem toList_cleanSelect (sql : String) : (cleanSelect sql).toList =
    dropEndWhile isBlank (dropEndWhile (· = ';') (trimChars sql.toList)) :=
  String.toList_ofList

theorem cleanSelect_prefix_trimChars (sql : String) :
    (cleanSelect sql).toList <+: trimChars sql.toList := by
  rw [toList_cleanSelect]
  exact (dropEndWhile_prefix_self isBlank _).trans (dropEndWhile_prefix_self _ _)

theorem isTrimmed_cleanSelect (sql : String) : IsTrimmed (cleanSelect sql).toList := by
  refine (isTrimmed_trimChars sql.toList).of_prefix_of_last (cleanSelect_prefix_trimChars sql) ?_
  intro c last
  rw [toList_cleanSelect] at last
  exact eq_false_of_getLast?_dropEndWhile last

/-- Of the trimmed text, the select lacks semicolons at the end and the blanks before them. -/
theorem exists_trimChars_eq (sql : String) :
    ∃ gap marks, trimChars sql.toList = (cleanSelect sql).toList ++ gap ++ marks ∧
      (∀ c ∈ gap, isBlank c = true) ∧ (∀ c ∈ marks, c = ';') ∧ (marks = [] → gap = []) ∧
      (gap = [] → (cleanSelect sql).toList.getLast? ≠ some ';') := by
  obtain ⟨marks, semicolons, whole⟩ := exists_dropEndWhile (· = ';') (trimChars sql.toList)
  obtain ⟨gap, blank, kept⟩ :=
    exists_dropEndWhile isBlank (dropEndWhile (· = ';') (trimChars sql.toList))
  rw [← toList_cleanSelect] at kept
  refine ⟨gap, marks, ?_, blank, fun c member => by simpa using semicolons c member, ?_, ?_⟩
  · rw [← kept]
    exact whole
  · -- Nothing was dropped, so that the blanks would stand at the end of the trimmed text.
    rintro rfl
    rw [List.append_nil] at whole
    rw [toList_cleanSelect, ← whole, dropEndWhile_of_last (isTrimmed_trimChars sql.toList).last]
      at kept
    exact List.self_eq_append_right.mp kept
  · rintro rfl last
    rw [List.append_nil] at kept
    rw [← kept] at last
    simpa using eq_false_of_getLast?_dropEndWhile last

/-- The select is the text without blanks at its start and blanks and semicolons at its end. -/
theorem exists_eq_append_cleanSelect (sql : String) :
    ∃ front back, sql.toList = front ++ (cleanSelect sql).toList ++ back ∧
      (∀ c ∈ front, isBlank c = true) ∧ ∀ c ∈ back, isBlank c = true ∨ c = ';' := by
  obtain ⟨front, back, before, after, whole⟩ := exists_trimChars sql.toList
  obtain ⟨gap, marks, trimmed, blank, semicolons, -, -⟩ := exists_trimChars_eq sql
  refine ⟨front, gap ++ marks ++ back, ?_, before, fun c member => ?_⟩
  · rw [whole, trimmed]
    simp only [List.append_assoc]
  · rcases List.mem_append.mp member with inside | outside
    · rcases List.mem_append.mp inside with space | mark
      · exact .inl (blank c space)
      · exact .inr (semicolons c mark)
    · exact .inl (after c outside)

/-! ## Semicolons that are left -/

/-- The text ends with semicolons that blanks part from an earlier semicolon, apart from blanks
after them. -/
def EndsParted (text : List Char) : Prop :=
  ∃ body gap marks back, text = body ++ ';' :: gap ++ marks ++ back ∧
    gap ≠ [] ∧ (∀ c ∈ gap, isBlank c = true) ∧ marks ≠ [] ∧ (∀ c ∈ marks, c = ';') ∧
    ∀ c ∈ back, isBlank c = true

theorem getLast?_of_all {p : Char → Prop} (all : ∀ c ∈ text, p c) (nonempty : text ≠ [])
    (front : List Char) {c : Char} (last : (front ++ text).getLast? = some c) : p c := by
  rw [List.getLast?_append_of_ne_nil _ nonempty] at last
  exact all c (List.mem_of_getLast? last)

/-- The select ends with a semicolon only if blanks part it from later ones. -/
theorem endsParted_of_getLast? (last : (cleanSelect sql).toList.getLast? = some ';') :
    EndsParted sql.toList := by
  obtain ⟨front, back, -, after, whole⟩ := exists_trimChars sql.toList
  obtain ⟨gap, marks, trimmed, blank, semicolons, marked, parted⟩ := exists_trimChars_eq sql
  obtain ⟨body, ends⟩ := List.getLast?_eq_some_iff.mp last
  have spaced : gap ≠ [] := fun none => parted none last
  refine ⟨front ++ body, gap, marks, back, ?_, spaced, blank, mt marked spaced, semicolons, after⟩
  rw [whole, trimmed, ends]
  simp only [List.append_assoc, List.cons_append, List.nil_append]

/-- Only the last run of semicolons is taken away. -/
theorem getLast?_of_endsParted (parted : EndsParted sql.toList) :
    (cleanSelect sql).toList.getLast? = some ';' := by
  obtain ⟨body, gap, marks, back, whole, spaced, blank, marked, semicolons, after⟩ := parted
  have visible : isBlank ';' = false := by decide
  have trimmed : trimChars sql.toList = body.dropWhile isBlank ++ ';' :: gap ++ marks := by
    have start : ∀ c, (';' :: (gap ++ (marks ++ back))).head? = some c → isBlank c = false := by
      rintro c ⟨⟩
      exact visible
    have stop : ∀ c, (body.dropWhile isBlank ++ ';' :: gap ++ marks).getLast? = some c →
        isBlank c = false := by
      intro c last
      rwa [getLast?_of_all semicolons marked _ last]
    have ends := dropEndWhile_append_of_last after stop
    rw [trimChars, whole, ← ends]
    simp only [List.append_assoc, List.cons_append]
    rw [dropWhile_append_of_stop start]
  have unmarked : dropEndWhile (· = ';') (trimChars sql.toList) =
      body.dropWhile isBlank ++ ';' :: gap := by
    have stop : ∀ c, (body.dropWhile isBlank ++ [';'] ++ gap).getLast? = some c →
        decide (c = ';') = false := by
      intro c last
      have space := getLast?_of_all blank spaced _ last
      rw [decide_eq_false_iff_not]
      rintro rfl
      cases visible.symm.trans space
    rw [List.append_assoc, List.singleton_append] at stop
    rw [trimmed]
    exact dropEndWhile_append_of_last (fun c member => by simpa using semicolons c member) stop
  have clean : (cleanSelect sql).toList = body.dropWhile isBlank ++ [';'] := by
    have stop : ∀ c, (body.dropWhile isBlank ++ [';']).getLast? = some c → isBlank c = false := by
      intro c last
      rw [List.getLast?_concat, Option.some.injEq] at last
      rw [← last, visible]
    have ends := dropEndWhile_append_of_last blank stop
    rw [toList_cleanSelect, unmarked, ← ends, List.append_assoc, List.singleton_append]
  rw [clean, List.getLast?_concat]

theorem getLast?_cleanSelect_iff :
    (cleanSelect sql).toList.getLast? = some ';' ↔ EndsParted sql.toList :=
  ⟨endsParted_of_getLast?, getLast?_of_endsParted⟩

/-- Cleaning changes nothing of a trimmed text that does not end with a semicolon, and only of
such a text. -/
theorem cleanSelect_eq_self_iff :
    cleanSelect sql = sql ↔ IsTrimmed sql.toList ∧ sql.toList.getLast? ≠ some ';' := by
  constructor
  · intro same
    have trimmed := isTrimmed_cleanSelect sql
    rw [same] at trimmed
    refine ⟨trimmed, fun last => ?_⟩
    obtain ⟨body, ends⟩ := List.getLast?_eq_some_iff.mp last
    have short : (cleanSelect sql).toList <+: body := by
      rw [toList_cleanSelect, trimmed.trimChars_eq, ends]
      have dropped : dropEndWhile (· = ';') (body ++ [';']) = dropEndWhile (· = ';') body :=
        List.rdropWhile_concat_pos _ _ _ (by decide)
      rw [dropped]
      exact (dropEndWhile_prefix_self isBlank _).trans (dropEndWhile_prefix_self _ _)
    have length := short.length_le
    rw [same, ends, List.length_append, List.length_singleton] at length
    omega
  · rintro ⟨trimmed, last⟩
    refine String.toList_inj.mp ?_
    have unmarked : dropEndWhile (· = ';') sql.toList = sql.toList := by
      refine dropEndWhile_of_last fun c stop => ?_
      rw [decide_eq_false_iff_not]
      rintro rfl
      exact last stop
    rw [toList_cleanSelect, trimmed.trimChars_eq, unmarked, dropEndWhile_of_last trimmed.last]

/-- Trimming alone gives the select unless it leaves a semicolon at the end. -/
theorem trim_eq_cleanSelect_iff :
    trim sql = cleanSelect sql ↔ (trim sql).toList.getLast? ≠ some ';' := by
  obtain ⟨gap, marks, trimmed, -, semicolons, marked, parted⟩ := exists_trimChars_eq sql
  rw [← String.toList_inj, toList_trim]
  constructor
  · intro same
    rw [same, List.append_assoc, List.self_eq_append_right, List.append_eq_nil_iff] at trimmed
    rw [same]
    exact parted trimmed.1
  · intro last
    have unmarked : marks = [] := by
      by_contra some
      obtain ⟨c, stop⟩ := Option.ne_none_iff_exists'.mp (mt List.getLast?_eq_none_iff.mp some)
      obtain rfl := semicolons c (List.mem_of_getLast? stop)
      rw [trimmed, List.getLast?_append, stop, Option.some_or] at last
      exact last rfl
    rw [trimmed, unmarked, marked unmarked, List.append_nil, List.append_nil]

/-! ## Statements -/

namespace Materialization

variable {materialization : Materialization} {relation : String}

/-- A statement is the select between two texts that do not depend on it. -/
theorem exists_statement?_eq (built : materialization ≠ .ephemeral) (relation : String) :
    ∃ opening closing, ∀ sql, materialization.statement? relation sql =
      some (opening ++ cleanSelect sql ++ closing) := by
  cases materialization with
  | table => exact ⟨"create table " ++ relation ++ " as " ++ "(\n", "\n)", fun sql => rfl⟩
  | seed => exact ⟨"create table " ++ relation ++ " as " ++ "(\n", "\n)", fun sql => rfl⟩
  | snapshot => exact ⟨"create table " ++ relation ++ " as " ++ "(\n", "\n)", fun sql => rfl⟩
  | view => exact ⟨"create view " ++ relation ++ " as " ++ "(\n", "\n)", fun sql => rfl⟩
  | incremental => exact ⟨"insert into " ++ relation ++ " " ++ "(\n", "\n)", fun sql => rfl⟩
  | ephemeral => exact absurd rfl built
  | test => exact ⟨"", "", fun sql => by rw [String.empty_append, String.append_empty]; rfl⟩
  | custom name => exact ⟨"", "", fun sql => by rw [String.empty_append, String.append_empty]; rfl⟩

/-- The select in a statement is trimmed and lacks nothing of the text but blanks at its start and
blanks and semicolons at its end.  It ends with a semicolon exactly if blanks part the semicolons at
the end of the text, and exactly then the statement of the select is another one. -/
theorem statement?_embeds_select (built : materialization ≠ .ephemeral) (relation : String) :
    ∃ opening closing, ∀ sql,
      materialization.statement? relation sql = some (opening ++ cleanSelect sql ++ closing) ∧
      IsTrimmed (cleanSelect sql).toList ∧
      (∃ front back, sql.toList = front ++ (cleanSelect sql).toList ++ back ∧
        (∀ c ∈ front, isBlank c = true) ∧ ∀ c ∈ back, isBlank c = true ∨ c = ';') ∧
      ((cleanSelect sql).toList.getLast? = some ';' ↔ EndsParted sql.toList) ∧
      (materialization.statement? relation (cleanSelect sql) =
        materialization.statement? relation sql ↔ ¬EndsParted sql.toList) := by
  obtain ⟨opening, closing, embeds⟩ := exists_statement?_eq built relation
  refine ⟨opening, closing, fun sql => ⟨embeds sql, isTrimmed_cleanSelect sql,
    exists_eq_append_cleanSelect sql, getLast?_cleanSelect_iff, ?_⟩⟩
  have same : materialization.statement? relation (cleanSelect sql) =
      materialization.statement? relation sql ↔
        cleanSelect (cleanSelect sql) = cleanSelect sql := by
    rw [embeds, embeds, Option.some.injEq, String.ext_iff, String.ext_iff]
    simp only [String.toList_append, List.append_cancel_right_eq, List.append_cancel_left_eq]
  rw [same, cleanSelect_eq_self_iff, ← getLast?_cleanSelect_iff]
  exact and_iff_right (isTrimmed_cleanSelect sql)

/-- The statement of a table whose text ends with one semicolon. -/
theorem statement?_embeds_select_table :
    table ≠ .ephemeral ∧ IsTrimmed (cleanSelect " select 1 ;\n").toList ∧
      ¬EndsParted " select 1 ;\n".toList ∧
      table.statement? "t" (cleanSelect " select 1 ;\n") =
        table.statement? "t" " select 1 ;\n" := by
  have built : table ≠ .ephemeral := by decide
  obtain ⟨opening, closing, facts⟩ := statement?_embeds_select built "t"
  obtain ⟨-, trimmed, -, ends, again⟩ := facts " select 1 ;\n"
  have whole : ¬EndsParted " select 1 ;\n".toList := by
    rw [← ends]
    decide
  exact ⟨built, trimmed, whole, again.mpr whole⟩

/-- A blank between two semicolons keeps the first one in the statement, and only taking the select
for the text of a model removes it. -/
theorem statement?_of_parted_semicolons :
    table.statement? "t" "select 1; ;" = some "create table t as (\nselect 1;\n)" ∧
      (cleanSelect "select 1; ;").toList.getLast? = some ';' ∧
      table.statement? "t" (cleanSelect "select 1; ;") =
        some "create table t as (\nselect 1\n)" := by
  decide

end Materialization

end SqlPipeline
