import SqlPipeline.Proofs.Number.Digits
import SqlPipeline.Proofs.Text.Splitting
import SqlPipeline.Results.Email

/-!
# What can be read off a notification

The body of a notification has a line with the outcome, an empty line, and a line for each node.
Ids and messages are put into these lines as they are, so a break in one of them breaks its line,
and a separator in an id ends the id for the reader.  Without such breaks the lines are those of the
nodes, in their order, with the labels that the subject counts.
-/

namespace SqlPipeline.Email

open Text

variable {execution : Execution} {result : NodeResult}

/-! ## The lines of a body -/

/-- What follows the id of a node in its line. -/
def note (result : NodeResult) : String :=
  match result.message with
  | some message => if message.isEmpty then "" else " - " ++ message
  | none => ""

/-- The line of a node without its end. -/
def lineOf (result : NodeResult) : List Char :=
  (padded 8 (label result.status)).toList ++ ' ' :: (result.id.toList ++ (note result).toList)

/-- The first line of a body without its end. -/
def headerOf (execution : Execution) : String :=
  "Finished " ++ commandOf execution.args ++ " of " ++ toString execution.summary.total
    ++ " nodes in " ++ String.ofList (twoPlaces execution.elapsedTime) ++ "s."

theorem toList_nodeLine (result : NodeResult) :
    (nodeLine result).toList = lineOf result ++ ['\n'] := by
  have parts : nodeLine result =
      padded 8 (label result.status) ++ " " ++ result.id ++ note result ++ "\n" := rfl
  rw [parts, lineOf]
  simp

/-- A body ends each of its lines. -/
theorem toList_bodyOf (execution : Execution) : (bodyOf execution).toList =
    unlines ((headerOf execution).toList :: [] :: execution.results.map lineOf) := by
  have nodes : (String.join (execution.results.map nodeLine)).toList =
      unlines (execution.results.map lineOf) := by
    rw [String.toList_join, List.flatMap_map, unlines, List.flatMap_map]
    exact List.flatMap_congr fun result _ => toList_nodeLine result
  have front : unlines ((headerOf execution).toList :: [] :: execution.results.map lineOf) =
      (headerOf execution ++ "\n\n").toList ++ unlines (execution.results.map lineOf) := by
    simp [unlines]
  have parts : (bodyOf execution).toList = (headerOf execution ++ "\n\n").toList ++
      (String.join (execution.results.map nodeLine)).toList := by
    -- The equations of these two texts are costly to derive, so both are unfolded as they stand.
    delta bodyOf headerOf
    simp
  rw [parts, nodes, front]

theorem not_mem_decimalDigits (n : Nat) : '\n' ∉ decimalDigits n := fun member =>
  absurd (isDigit_of_mem_decimalDigits member) (by decide)

theorem not_mem_twoPlaces (time : Binary64) : '\n' ∉ twoPlaces time := by
  have padded : ∀ count n, '\n' ∉ List.replicate count '0' ++ decimalDigits n := by
    intro count n
    simp [List.mem_replicate, not_mem_decimalDigits]
  cases time with
  | finite negative magnitude =>
    have front : '\n' ∉ if negative then ['-'] else [] := by cases negative <;> decide
    rw [twoPlaces, List.mem_append, List.mem_append, List.mem_append]
    rintro (((sign | whole) | point) | places)
    · exact front sign
    · exact padded _ _ (List.mem_of_mem_take whole)
    · exact absurd point (by decide)
    · exact padded _ _ (List.mem_of_mem_drop places)
  | infinite negative => cases negative <;> simp [twoPlaces]
  | notANumber => simp [twoPlaces]

theorem mem_headerOf_iff : '\n' ∈ (headerOf execution).toList ↔
    '\n' ∈ (commandOf execution.args).toList := by
  have total : '\n' ∉ Nat.toDigits 10 execution.summary.total := not_mem_decimalDigits _
  have time := not_mem_twoPlaces execution.elapsedTime
  delta headerOf
  simp [total, time]

theorem mem_lineOf_iff : '\n' ∈ lineOf result ↔
    '\n' ∈ result.id.toList ∨ '\n' ∈ (note result).toList := by
  have front : '\n' ∉ (padded 8 (label result.status)).toList := by
    cases result.status <;> decide
  simp [lineOf, front]

/-- Neither the command nor an id nor a message breaks its line. -/
structure IsUnbroken (execution : Execution) : Prop where
  command : '\n' ∉ (commandOf execution.args).toList
  ids : ∀ result ∈ execution.results, '\n' ∉ result.id.toList
  notes : ∀ result ∈ execution.results, '\n' ∉ (note result).toList

instance : Decidable (IsUnbroken execution) :=
  decidable_of_iff ('\n' ∉ (commandOf execution.args).toList ∧
      (∀ result ∈ execution.results, '\n' ∉ result.id.toList) ∧
      ∀ result ∈ execution.results, '\n' ∉ (note result).toList)
    ⟨fun ⟨command, ids, notes⟩ => ⟨command, ids, notes⟩,
      fun ⟨command, ids, notes⟩ => ⟨command, ids, notes⟩⟩

theorem isUnbroken_iff : IsUnbroken execution ↔
    ∀ line ∈ (headerOf execution).toList :: [] :: execution.results.map lineOf, '\n' ∉ line := by
  simp only [List.forall_mem_cons, List.forall_mem_map, mem_headerOf_iff, mem_lineOf_iff, not_or]
  constructor
  · rintro ⟨command, ids, notes⟩
    exact ⟨command, List.not_mem_nil, fun result listed => ⟨ids result listed, notes result listed⟩⟩
  · rintro ⟨command, -, each⟩
    exact ⟨command, fun result listed => (each result listed).1,
      fun result listed => (each result listed).2⟩

/-! ## Reading lines back -/

/-- What stands between the id of a node and its message. -/
def separator : List Char := [' ', '-', ' ']

/-- The label and the id that are read from the line of a node: the text before the first blank, and
the text from the tenth column up to the first separator. -/
def entryOf (line : List Char) : String × String :=
  let rest := line.drop 9
  (String.ofList (line.takeWhile (· ≠ ' ')),
    String.ofList (((splitFirst? separator rest).map (·.1)).getD rest))

/-- The labels and ids that are read from a body. -/
def entriesOf (body : String) : List (String × String) := ((lines body.toList).drop 2).map entryOf

/-- No separator begins within the id of a node, even if it ends after it. -/
def IsSetOff (result : NodeResult) : Prop :=
  ¬separator <:+: result.id.toList ++ (note result).toList.take 2

instance : Decidable (IsSetOff result) :=
  inferInstanceAs (Decidable ¬separator <:+: result.id.toList ++ (note result).toList.take 2)

theorem note_cases (result : NodeResult) : (note result).toList = [] ∨
    ∃ message, (note result).toList = separator ++ message := by
  rw [note]
  cases result.message with
  | none => exact .inl rfl
  | some message =>
    dsimp only
    split
    · exact .inl rfl
    · exact .inr ⟨message.toList, String.toList_append⟩

/-- A label is at most seven characters long, none of which is a blank. -/
theorem exists_padded (status : NodeStatus) : ∃ blanks,
    (padded 8 (label status)).toList = (label status).toList ++ ' ' :: blanks ∧
      (padded 8 (label status)).toList.length = 8 ∧ ' ' ∉ (label status).toList := by
  cases status with
  | success => exact ⟨List.replicate 5 ' ', by decide⟩
  | error => exact ⟨List.replicate 2 ' ', by decide⟩
  | skipped => exact ⟨List.replicate 3 ' ', by decide⟩
  | pending => exact ⟨[], by decide⟩
  | running => exact ⟨[], by decide⟩

theorem entryOf_lineOf_fst (result : NodeResult) :
    (entryOf (lineOf result)).1 = label result.status := by
  obtain ⟨blanks, text, -, visible⟩ := exists_padded result.status
  have letters : ∀ c ∈ (label result.status).toList, decide (c ≠ ' ') = true :=
    fun c member => decide_eq_true fun blank => visible (blank ▸ member)
  rw [entryOf, lineOf, text, List.append_assoc, List.takeWhile_append_of_pos letters,
    List.cons_append, List.takeWhile_cons_of_neg (by decide), List.append_nil, String.ofList_toList]

/-- The id of a node is read from its line just if no separator begins within it. -/
theorem entryOf_lineOf_snd_iff :
    (entryOf (lineOf result)).2 = result.id ↔ IsSetOff result := by
  obtain ⟨-, -, width, -⟩ := exists_padded result.status
  have rest : (lineOf result).drop 9 = result.id.toList ++ (note result).toList := by
    rw [lineOf, List.drop_append, List.drop_of_length_le (by omega), width]
    rfl
  rw [entryOf, rest, IsSetOff, ← String.toList_inj, String.toList_ofList]
  rcases note_cases result with none | ⟨message, some⟩
  · rw [none, List.take_nil, List.append_nil]
    cases found : splitFirst? separator result.id.toList with
    | none => simp [splitFirst?_eq_none_iff.mp found]
    | some parts =>
      obtain ⟨before, after⟩ := parts
      have whole := eq_append_of_splitFirst? found
      have within : separator <:+: result.id.toList := ⟨before, after, whole.symm⟩
      simp only [Option.map_some, Option.getD_some, within, not_true, iff_false]
      intro same
      have length := congrArg List.length whole
      simp [same, separator] at length
  · have start : (note result).toList.take 2 = separator.dropLast := by
      rw [some]
      rfl
    rw [start, some, ← List.append_assoc]
    constructor
    · intro same
      cases found : splitFirst? separator (result.id.toList ++ separator ++ message) with
      | none => exact absurd (List.infix_append _ _ _) (splitFirst?_eq_none_iff.mp found)
      | some parts =>
        rw [found] at same
        obtain ⟨before, after⟩ := parts
        obtain rfl : before = result.id.toList := same
        exact not_infix_of_splitFirst? (by decide) found
    · intro setOff
      rw [splitFirst?_append_of_first setOff]
      rfl

theorem entriesOf_bodyOf (unbroken : IsUnbroken execution) :
    entriesOf (bodyOf execution) = execution.results.map fun result => entryOf (lineOf result) := by
  rw [entriesOf, toList_bodyOf, lines_unlines (isUnbroken_iff.mp unbroken)]
  simp

theorem label_eq_iff {status other : NodeStatus} : label status = label other ↔ status = other := by
  cases status <;> cases other <;> decide

/-- Every label stands before as many ids as there are nodes of its status. -/
theorem countP_entriesOf (unbroken : IsUnbroken execution) (status : NodeStatus) :
    (entriesOf (bodyOf execution)).countP (·.1 = label status) = execution.count status := by
  rw [entriesOf_bodyOf unbroken, List.countP_map, Execution.count]
  refine List.countP_congr fun result _ => ?_
  simp [entryOf_lineOf_fst, label_eq_iff]

/-- A body has two lines and one for each node just if nothing that is put into it breaks a line.
Then the first line is that of the outcome and the second one is empty, the labels and ids of the
others are those of the nodes, in their order, just if no separator begins within an id, and the
subject counts the lines of each label. -/
theorem body_lists_nodes (execution : Execution) :
    ((lines (ofExecution execution).body.toList).length = execution.results.length + 2 ↔
      IsUnbroken execution) ∧
    (IsUnbroken execution →
      (lines (ofExecution execution).body.toList).take 2 = [(headerOf execution).toList, []] ∧
      (entriesOf (ofExecution execution).body).map (·.1) =
        execution.results.map (fun result => label result.status) ∧
      (entriesOf (ofExecution execution).body =
          execution.results.map (fun result => (label result.status, result.id)) ↔
        ∀ result ∈ execution.results, IsSetOff result) ∧
      (ofExecution execution).subject =
        "modelflow " ++ commandOf execution.args ++ " "
          ++ (if execution.succeeded then "succeeded" else "failed") ++ ": "
          ++ toString ((entriesOf (ofExecution execution).body).countP (·.1 = "OK")) ++ " ok, "
          ++ toString ((entriesOf (ofExecution execution).body).countP (·.1 = "ERROR"))
          ++ " error, "
          ++ toString ((entriesOf (ofExecution execution).body).countP (·.1 = "SKIP"))
          ++ " skipped") := by
  have body : (ofExecution execution).body = bodyOf execution := rfl
  have subject : (ofExecution execution).subject = subjectOf execution := rfl
  rw [body, subject, toList_bodyOf, isUnbroken_iff, ← length_lines_unlines_iff]
  refine ⟨by simp, fun whole => ?_⟩
  rw [length_lines_unlines_iff] at whole
  have unbroken := isUnbroken_iff.mpr whole
  refine ⟨by rw [lines_unlines whole]; rfl, ?_, ?_, ?_⟩
  · rw [entriesOf_bodyOf unbroken, List.map_map]
    exact List.map_congr_left fun result _ => entryOf_lineOf_fst result
  · rw [entriesOf_bodyOf unbroken, List.map_inj_left]
    refine forall₂_congr fun result _ => ?_
    rw [Prod.ext_iff, entryOf_lineOf_fst, entryOf_lineOf_snd_iff]
    exact and_iff_right rfl
  · have ok : (entriesOf (bodyOf execution)).countP (·.1 = "OK") = execution.count .success :=
      countP_entriesOf unbroken .success
    have error : (entriesOf (bodyOf execution)).countP (·.1 = "ERROR") = execution.count .error :=
      countP_entriesOf unbroken .error
    have skip : (entriesOf (bodyOf execution)).countP (·.1 = "SKIP") = execution.count .skipped :=
      countP_entriesOf unbroken .skipped
    rw [ok, error, skip]
    rfl

/-- A run of three nodes, with a separator in the message of the second one. -/
def parted : Execution :=
  { results := [
      { NodeResult.skipped "model.shop.a" "" with status := .success },
      { NodeResult.skipped "model.shop.b" "disk - full" with status := .error },
      .skipped "model.shop.c" "Skipped because upstream 'model.shop.b' did not succeed"]
    elapsedTime := Binary64.ofRatio false 1 4
    generatedAt := ⟨0, 0⟩
    args := .default }

/-- Its nodes are read back from the body, and the subject counts them. -/
theorem body_lists_nodes_parted :
    IsUnbroken parted ∧ (∀ result ∈ parted.results, IsSetOff result) ∧
      entriesOf (ofExecution parted).body =
        [("OK", "model.shop.a"), ("ERROR", "model.shop.b"), ("SKIP", "model.shop.c")] := by
  have unbroken : IsUnbroken parted := by decide
  have setOff : ∀ result ∈ parted.results, IsSetOff result := by decide
  obtain ⟨-, -, entries, -⟩ := (body_lists_nodes parted).2 unbroken
  exact ⟨unbroken, setOff, entries.mpr setOff⟩

/-- A run whose only node fails to compile because of a variable with a break in its name. -/
def broken : Execution :=
  { results := [
      { NodeResult.skipped "model.shop.a"
          "Compilation error: Undefined in models/a.sql:1: Variable 'a\nb' is not defined" with
        status := .error }]
    elapsedTime := Binary64.ofRatio false 1 4
    generatedAt := ⟨0, 0⟩
    args := .default }

/-- The message of the node takes two lines of the body. -/
theorem message_takes_two_lines : broken.results.length = 1 ∧
    (lines (ofExecution broken).body.toList).map String.ofList =
      ["Finished run of 1 nodes in 0.25s.", "",
        "ERROR    model.shop.a - Compilation error: Undefined in models/a.sql:1: Variable 'a",
        "b' is not defined"] := by
  decide +kernel

end SqlPipeline.Email
