import Mathlib.Data.List.TakeWhile
import SqlPipeline.Proofs.Model.Block
import SqlPipeline.Proofs.Model.Validation
import SqlPipeline.Proofs.Success
import SqlPipeline.Proofs.Text.Splitting
import SqlPipeline.Proofs.Text.Trimming

/-!
# What references are read from

A reference is read from a block that is one call of `ref` or `source`, apart from blanks around it,
where each argument begins and ends with the same quote and holds no comma.  Nothing keeps that
quote from standing inside the argument as well, so a larger expression that begins and ends like a
call is read as one.  Where no name holds a quote, the arguments are literals.
-/

namespace SqlPipeline

namespace Text

theorem intercalate_splitOnChar (separator : Char) (text : List Char) :
    [separator].intercalate (splitOnChar separator text) = text := by
  induction text with
  | nil => rfl
  | cons c text ih =>
    rw [splitOnChar]
    cases splitted : splitOnChar separator text with
    | nil => exact absurd splitted (splitOnChar_ne_nil separator text)
    | cons part parts =>
      rw [splitted] at ih
      split
      next same => rw [List.intercalate_cons_cons, ih, same]; rfl
      next =>
        cases parts with
        | nil => rw [List.intercalate_singleton] at ih ⊢; rw [ih]
        | cons other parts =>
          rw [List.intercalate_cons_cons] at ih ⊢
          rw [List.cons_append, List.cons_append, ih]

theorem splitOnChar_eq_one_iff {separator : Char} {text part : List Char} :
    splitOnChar separator text = [part] ↔ text = part ∧ separator ∉ part := by
  constructor
  · intro splitted
    have whole := intercalate_splitOnChar separator text
    rw [splitted, List.intercalate_singleton] at whole
    exact ⟨whole.symm, not_mem_of_mem_splitOnChar (splitted ▸ List.mem_singleton_self part)⟩
  · rintro ⟨rfl, absent⟩
    exact splitOnChar_of_not_mem absent

theorem splitOnChar_eq_two_iff {separator : Char} {text first second : List Char} :
    splitOnChar separator text = [first, second] ↔
      text = first ++ separator :: second ∧ separator ∉ first ∧ separator ∉ second := by
  constructor
  · intro splitted
    have whole := intercalate_splitOnChar separator text
    rw [splitted, List.intercalate_cons_cons, List.intercalate_singleton, List.append_assoc]
      at whole
    have absent : ∀ part ∈ [first, second], separator ∉ part :=
      fun part member => not_mem_of_mem_splitOnChar (splitted ▸ member)
    exact ⟨whole.symm, absent first (by simp), absent second (by simp)⟩
  · rintro ⟨rfl, absent, absent'⟩
    rw [splitOnChar_append_cons absent, splitOnChar_of_not_mem absent']

/-- What stands before the first doubled character has none, not even at its end. -/
theorem undoubled_of_splitFirst? {c : Char} {text before rest : List Char}
    (found : splitFirst? [c, c] text = some (before, rest)) : Undoubled c before := by
  induction text generalizing before with
  | nil => cases found
  | cons d text ih =>
    rw [splitFirst?] at found
    split at found
    next =>
      cases found
      exact undoubled_nil c
    next elsewhere =>
      obtain ⟨⟨front, back⟩, later, same⟩ := Option.map_eq_some_iff.mp found
      obtain ⟨rfl, rfl⟩ := Prod.mk.inj same
      refine List.isChain_cons.mpr ⟨fun e first => ?_, ih later⟩
      by_contra both
      rw [not_or, not_not, not_not] at both
      obtain ⟨here, next⟩ := both
      have begins : ∃ more, text = c :: more := by
        rw [eq_append_of_splitFirst? later]
        cases front with
        | nil => exact ⟨_, rfl⟩
        | cons f front =>
          obtain rfl : f = c := (Option.some.inj first).trans next
          exact ⟨_, rfl⟩
      obtain ⟨more, rfl⟩ := begins
      have doubled : after? [c, c] (c :: c :: more) = some more := after?_append [c, c] more
      rw [here, doubled] at elsewhere
      cases elsewhere

end Text

/-- The texts in a reference. -/
def ModelReference.texts : ModelReference → List String
  | .model package name => package.toList ++ [name]
  | .source group table => [group, table]

namespace ModelCalls

open Text

/-- A text in quotes of one kind, with blanks around them. -/
structure IsQuoted (text : List Char) (quote : Char) (content : List Char) : Prop where
  quotes : quote = '\'' ∨ quote = '"'
  spelled : ∃ front back, (∀ c ∈ front, isBlank c = true) ∧ (∀ c ∈ back, isBlank c = true) ∧
    text = front ++ quote :: (content ++ [quote]) ++ back

/-- The value stands between two quotes and holds no comma, though it may hold the quote. -/
def Delimits (text : List Char) (value : String) : Prop :=
  ∃ quote, IsQuoted text quote value.toList ∧ ',' ∉ value.toList

/-- The value stands between two quotes and does not hold the quote. -/
def IsLiteral (text : List Char) (value : String) : Prop :=
  ∃ quote, IsQuoted text quote value.toList ∧ quote ∉ value.toList

/-- A block is one call that makes a reference, with arguments of one kind for its texts. -/
def IsCallOf (argument : List Char → String → Prop) (block : List Char) : ModelReference → Prop
  | .model none name =>
    ∃ text, block = "ref(".toList ++ text ++ [')'] ∧ argument text name
  | .model (some package) name =>
    ∃ first second, block = "ref(".toList ++ (first ++ ',' :: second) ++ [')'] ∧
      argument first package ∧ argument second name
  | .source group table =>
    ∃ first second, block = "source(".toList ++ (first ++ ',' :: second) ++ [')'] ∧
      argument first group ∧ argument second table

variable {text block content : List Char} {quote : Char} {value : String}
  {reference : ModelReference}

/-! ## Arguments -/

theorem IsQuoted.isBlank_quote (quoted : IsQuoted text quote content) :
    isBlank quote = false := by
  rcases quoted.quotes with rfl | rfl <;> decide

theorem IsQuoted.trimChars_eq (quoted : IsQuoted text quote content) :
    trimChars text = quote :: (content ++ [quote]) := by
  have visible := quoted.isBlank_quote
  obtain ⟨front, back, before, after, rfl⟩ := quoted.spelled
  refine trimChars_append before after (List.cons_ne_nil _ _) (fun c first => ?_) fun c last => ?_
  · cases first
    exact visible
  · rw [← List.cons_append, List.getLast?_concat] at last
    cases last
    exact visible

theorem unquoted?_eq_some_iff :
    unquoted? quote text = some content ↔ text = quote :: (content ++ [quote]) := by
  rw [unquoted?, Option.bind_eq_bind, Option.bind_eq_some_iff]
  constructor
  · rintro ⟨rest, begins, ends⟩
    obtain rfl := after?_eq_some_iff.mp begins
    split at ends
    next last =>
      obtain ⟨inside, rfl⟩ := List.getLast?_eq_some_iff.mp last
      rw [List.dropLast_concat] at ends
      rw [Option.some.inj ends]
      rfl
    next => cases ends
  · rintro rfl
    refine ⟨content ++ [quote], after?_append [quote] _, ?_⟩
    rw [List.getLast?_concat, if_pos rfl, List.dropLast_concat]

/-- An argument is read as what stands between its outer quotes. -/
theorem literal?_eq_some_iff :
    literal? text = some value ↔ ∃ quote, IsQuoted text quote value.toList := by
  have trimmed : ∀ {quote content}, (quote = '\'' ∨ quote = '"') →
      trimChars text = quote :: (content ++ [quote]) → IsQuoted text quote content := by
    intro quote content quotes same
    obtain ⟨front, back, before, after, whole⟩ := exists_trimChars text
    exact ⟨quotes, front, back, before, after, same ▸ whole⟩
  rw [literal?]
  constructor
  · intro read
    obtain ⟨content, found, rfl⟩ := Option.map_eq_some_iff.mp read
    rw [String.toList_ofList]
    rcases Option.or_eq_some_iff.mp found with single | ⟨-, double⟩
    · exact ⟨'\'', trimmed (.inl rfl) (unquoted?_eq_some_iff.mp single)⟩
    · exact ⟨'"', trimmed (.inr rfl) (unquoted?_eq_some_iff.mp double)⟩
  · rintro ⟨quote, quoted⟩
    refine Option.map_eq_some_iff.mpr ⟨value.toList, ?_, String.ofList_toList⟩
    rw [quoted.trimChars_eq]
    rcases quoted.quotes with rfl | rfl
    · exact Option.or_eq_some_iff.mpr (.inl (unquoted?_eq_some_iff.mpr rfl))
    · refine Option.or_eq_some_iff.mpr (.inr ⟨?_, unquoted?_eq_some_iff.mpr rfl⟩)
      rw [unquoted?, after?_cons_of_ne (by decide)]
      rfl

theorem delimits_iff :
    Delimits text value ↔ ',' ∉ text ∧ literal? text = some value := by
  have comma : ∀ {quote content}, IsQuoted text quote content → (',' ∈ text ↔ ',' ∈ content) := by
    intro quote content quoted
    have blanks : ∀ gap : List Char, (∀ c ∈ gap, isBlank c = true) → ',' ∉ gap := by
      intro gap blank member
      exact absurd (blank ',' member) (by decide)
    have apart : ',' ≠ quote := by rcases quoted.quotes with rfl | rfl <;> decide
    obtain ⟨front, back, before, after, rfl⟩ := quoted.spelled
    simp [blanks front before, blanks back after, apart]
  rw [literal?_eq_some_iff]
  constructor
  · rintro ⟨quote, quoted, undivided⟩
    exact ⟨mt (comma quoted).mp undivided, quote, quoted⟩
  · rintro ⟨undivided, quote, quoted⟩
    exact ⟨quote, quoted, mt (comma quoted).mpr undivided⟩

/-- Where the value holds no quote, the argument is a literal. -/
theorem Delimits.isLiteral (delimits : Delimits text value)
    (plain : '\'' ∉ value.toList ∧ '"' ∉ value.toList) : IsLiteral text value := by
  obtain ⟨quote, quoted, -⟩ := delimits
  refine ⟨quote, quoted, ?_⟩
  rcases quoted.quotes with rfl | rfl
  · exact plain.1
  · exact plain.2

theorem literals?_one_iff : literals? text = some [value] ↔ Delimits text value := by
  rw [literals?, mapM_option_eq_some_iff, delimits_iff]
  simp only [List.forall₂_cons_right_iff, List.forall₂_nil_right_iff]
  constructor
  · rintro ⟨part, _, read, rfl, splitted⟩
    obtain ⟨rfl, absent⟩ := splitOnChar_eq_one_iff.mp splitted
    exact ⟨absent, read⟩
  · rintro ⟨absent, read⟩
    exact ⟨text, [], read, rfl, splitOnChar_of_not_mem absent⟩

theorem literals?_two_iff {first second : String} :
    literals? text = some [first, second] ↔
      ∃ front back, text = front ++ ',' :: back ∧ Delimits front first ∧ Delimits back second := by
  rw [literals?, mapM_option_eq_some_iff]
  simp only [List.forall₂_cons_right_iff, List.forall₂_nil_right_iff, delimits_iff]
  constructor
  · rintro ⟨front, _, read, ⟨back, _, read', rfl, rfl⟩, splitted⟩
    obtain ⟨rfl, absent, absent'⟩ := splitOnChar_eq_two_iff.mp splitted
    exact ⟨front, back, rfl, ⟨absent, read⟩, absent', read'⟩
  · rintro ⟨front, back, rfl, ⟨absent, read⟩, absent', read'⟩
    exact ⟨front, _, read, ⟨back, _, read', rfl, rfl⟩,
      splitOnChar_eq_two_iff.mpr ⟨rfl, absent, absent'⟩⟩

/-! ## Calls -/

theorem argumentsOf?_eq_some_iff {function : String} {arguments : List Char} :
    argumentsOf? function block = some arguments ↔
      block = function.toList ++ ['('] ++ arguments ++ [')'] := by
  rw [argumentsOf?, Option.bind_eq_bind, Option.bind_eq_some_iff]
  constructor
  · rintro ⟨rest, begins, ends⟩
    obtain rfl := after?_eq_some_iff.mp begins
    split at ends
    next last =>
      obtain ⟨inside, rfl⟩ := List.getLast?_eq_some_iff.mp last
      rw [List.dropLast_concat] at ends
      rw [Option.some.inj ends, List.append_assoc _ arguments]
    next => cases ends
  · rintro rfl
    refine ⟨arguments ++ [')'], ?_, ?_⟩
    · rw [List.append_assoc, after?_append]
    · rw [List.getLast?_concat, if_pos rfl, List.dropLast_concat]

theorem model?_eq_some_iff :
    model? block = some reference ↔
      (∃ package name, reference = .model package name) ∧ IsCallOf Delimits block reference := by
  rw [model?, Option.bind_eq_bind, Option.bind_eq_some_iff]
  simp only [argumentsOf?_eq_some_iff, Option.bind_eq_bind, Option.bind_eq_some_iff]
  constructor
  · rintro ⟨arguments, rfl, values, read, made⟩
    split at made
    · cases made
      exact ⟨⟨_, _, rfl⟩, arguments, rfl, literals?_one_iff.mp read⟩
    · cases made
      obtain ⟨front, back, rfl, first, second⟩ := literals?_two_iff.mp read
      exact ⟨⟨_, _, rfl⟩, front, back, rfl, first, second⟩
    · cases made
  · rintro ⟨⟨package, name, rfl⟩, call⟩
    cases package with
    | none =>
      obtain ⟨text, rfl, only⟩ := call
      exact ⟨text, rfl, _, literals?_one_iff.mpr only, rfl⟩
    | some package =>
      obtain ⟨front, back, rfl, first, second⟩ := call
      exact ⟨_, rfl, _, literals?_two_iff.mpr ⟨front, back, rfl, first, second⟩, rfl⟩

theorem source?_eq_some_iff :
    source? block = some reference ↔
      (∃ group table, reference = .source group table) ∧ IsCallOf Delimits block reference := by
  rw [source?, Option.bind_eq_bind, Option.bind_eq_some_iff]
  simp only [argumentsOf?_eq_some_iff, Option.bind_eq_bind, Option.bind_eq_some_iff]
  constructor
  · rintro ⟨arguments, rfl, values, read, made⟩
    split at made
    · cases made
      obtain ⟨front, back, rfl, first, second⟩ := literals?_two_iff.mp read
      exact ⟨⟨_, _, rfl⟩, front, back, rfl, first, second⟩
    · cases made
  · rintro ⟨⟨group, table, rfl⟩, front, back, rfl, first, second⟩
    exact ⟨_, rfl, _, literals?_two_iff.mpr ⟨front, back, rfl, first, second⟩, rfl⟩

/-- No block is a call of both functions. -/
theorem model?_of_source? (read : source? block = some reference) : model? block = none := by
  obtain ⟨⟨group, table, rfl⟩, front, back, rfl, -⟩ := source?_eq_some_iff.mp read
  have initials :
      "ref".toList = 'r' :: "ef".toList ∧ "source(".toList = 's' :: "ource(".toList := by
    decide
  rw [model?, argumentsOf?, initials.1, initials.2]
  rfl

/-- A block makes a reference exactly if it is a call of delimited arguments. -/
theorem mem_references_ofBlock_iff :
    reference ∈ (ofBlock block).references ↔ IsCallOf Delimits block reference := by
  have kinds : IsCallOf Delimits block reference ↔
      model? block = some reference ∨ source? block = some reference := by
    rw [model?_eq_some_iff, source?_eq_some_iff, ← or_and_right]
    exact (and_iff_right (by cases reference <;> simp)).symm
  rw [kinds, ofBlock, addBlock]
  cases model : model? block with
  | some other =>
    have no_source : source? block ≠ some reference := by
      intro source
      rw [model?_of_source? source] at model
      cases model
    simp [no_source, EmptyCollection.emptyCollection, eq_comm]
  | none =>
    cases source : source? block with
    | some other => simp [EmptyCollection.emptyCollection, eq_comm]
    | none =>
      cases settings? block <;> simp [EmptyCollection.emptyCollection]

/-! ## Texts -/

theorem mem_references_ofText_iff {text : String} :
    reference ∈ (ofText text).references ↔
      ∃ block ∈ blocksOf text.toList, IsCallOf Delimits block reference := by
  rw [ofText_eq_foldl]
  induction blocksOf text.toList with
  | nil => simp [EmptyCollection.emptyCollection]
  | cons block blocks ih =>
    rw [List.foldl_cons, foldl_addBlock, references_append, List.mem_append, ih,
      List.exists_mem_cons_iff, ← ofBlock, mem_references_ofBlock_iff]

/-- A block stands between two opening braces and the next two closing ones. -/
theorem exists_of_mem_blocksOf (member : block ∈ blocksOf text) :
    ∃ before content after, text = before ++ (opening ++ content ++ closing ++ after) ∧
      Undoubled '\x7d' content ∧ block = trimChars content := by
  induction size : text.length using Nat.strong_induction_on generalizing text with
  | _ size ih =>
    rw [blocksOf_eq] at member
    split at member
    next => cases member
    next before rest opened =>
      split at member
      next => cases member
      next content after closed =>
        have begins := eq_append_of_splitFirst? opened
        have ends := eq_append_of_splitFirst? closed
        rcases List.mem_cons.mp member with rfl | later
        · refine ⟨before, content, after, ?_, undoubled_of_splitFirst? closed, rfl⟩
          rw [begins, ends]
          simp
        · have shorter := length_lt_of_block opened closed
          obtain ⟨front, inside, back, same, undoubled, trimmed⟩ :=
            ih after.length (size ▸ shorter) later rfl
          refine ⟨before ++ opening ++ content ++ closing ++ front, inside, back, ?_, undoubled,
            trimmed⟩
          rw [begins, ends, same]
          simp

theorem IsCallOf.isLiteral (call : IsCallOf Delimits block reference)
    (plain : ∀ value ∈ reference.texts, '\'' ∉ value.toList ∧ '"' ∉ value.toList) :
    IsCallOf IsLiteral block reference := by
  match reference with
  | .model none name =>
    obtain ⟨text, same, only⟩ := call
    exact ⟨text, same, only.isLiteral (plain name (by simp [ModelReference.texts]))⟩
  | .model (some package) name =>
    obtain ⟨front, back, same, first, second⟩ := call
    exact ⟨front, back, same, first.isLiteral (plain package (by simp [ModelReference.texts])),
      second.isLiteral (plain name (by simp [ModelReference.texts]))⟩
  | .source group table =>
    obtain ⟨front, back, same, first, second⟩ := call
    exact ⟨front, back, same, first.isLiteral (plain group (by simp [ModelReference.texts])),
      second.isLiteral (plain table (by simp [ModelReference.texts]))⟩

end ModelCalls

namespace Project

variable {settings : Settings} {files : List (FilePath × String)} {model name : String}

theorem nameSources_ne_unknownRef (seen : List (String × FilePath)) :
    nameSources seen files ≠ .error (.unknownRef model name) := by
  induction files generalizing seen with
  | nil => exact nofun
  | cons file files ih =>
    intro failed
    rw [nameSources] at failed
    split at failed
    next => cases failed
    next =>
      split at failed
      next => cases failed
      next =>
        rcases bind_eq_error_iff.mp failed with rest | ⟨_, -, rest⟩
        · exact ih _ rest
        · cases rest

/-- A model that is reported as unknown is read by a file. -/
theorem reads_of_unknownRef
    (failed : ofSources settings files = .error (.unknownRef model name)) :
    Reads files name model := by
  rcases bind_eq_error_iff.mp failed with named | ⟨sources, named, making⟩
  · exact absurd named (nameSources_ne_unknownRef [])
  obtain ⟨same, -, -⟩ := nameSources_eq_ok_iff.mp named
  obtain ⟨rfl, stems⟩ := forall₂_ofFile_iff.mp same
  rcases bind_eq_error_iff.mp making with modelling | ⟨models, -, checking⟩
  · obtain ⟨source, listed, fails⟩ := exists_of_mapM_eq_error modelling
    rcases bind_eq_error_iff.mp fails with looking | ⟨_, -, done⟩
    · obtain ⟨reference, read, missing⟩ := exists_of_mapM_eq_error looking
      rw [referencedId] at missing
      split at missing
      · cases missing
      · cases missing
        exact (reads_iff stems).mpr ⟨source, listed, rfl, read⟩
    · cases done
  · dsimp only at checking
    split at checking <;> cases checking

end Project

namespace ModelCalls

open Text

/-- A reference is read from every block that is one call of delimited arguments, and from no other
block.  If its texts hold no quotes, it comes from a block that is one call of literals, between two
opening braces and the next two closing ones; so a model that is reported as unknown is written down
like that, unless a quote stands in its name or in that of its package. -/
theorem references_of_calls (text : String) (settings : Settings)
    (files : List (FilePath × String)) :
    (∀ reference, reference ∈ (ofText text).references ↔
      ∃ block ∈ blocksOf text.toList, IsCallOf Delimits block reference) ∧
    (∀ reference ∈ (ofText text).references,
      (∀ value ∈ reference.texts, '\'' ∉ value.toList ∧ '"' ∉ value.toList) →
      ∃ before content after,
        text.toList = before ++ (opening ++ content ++ closing ++ after) ∧
        Undoubled '\x7d' content ∧ IsCallOf IsLiteral (trimChars content) reference) ∧
    ∀ model name, Project.ofSources settings files = .error (.unknownRef model name) →
      ∃ file ∈ files, file.1.fileStem? = some model ∧
        ∃ package, .model package name ∈ (ofText file.2).references := by
  refine ⟨fun reference => mem_references_ofText_iff, fun reference read plain => ?_,
    fun model name failed => Project.reads_of_unknownRef failed⟩
  obtain ⟨block, listed, call⟩ := mem_references_ofText_iff.mp read
  obtain ⟨before, content, after, same, undoubled, rfl⟩ := exists_of_mem_blocksOf listed
  exact ⟨before, content, after, same, undoubled, call.isLiteral plain⟩

/-- A model that is not there is reported by the name that a literal gives. -/
theorem references_of_calls_unknown :
    let text := "select * from \x7b\x7b ref( \"core\" , 'users') \x7d\x7d"
    let reference := ModelReference.model (some "core") "users"
    let files : List (FilePath × String) := [("models/a.sql", text)]
    reference ∈ (ofText text).references ∧
      (∀ value ∈ reference.texts, '\'' ∉ value.toList ∧ '"' ∉ value.toList) ∧
      (∃ block ∈ blocksOf text.toList, IsCallOf Delimits block reference) ∧
      (∃ before content after,
        text.toList = before ++ (opening ++ content ++ closing ++ after) ∧
        Undoubled '\x7d' content ∧ IsCallOf IsLiteral (trimChars content) reference) ∧
      Project.ofSources (.default "") files = .error (.unknownRef "a" "users") ∧
      ∃ file ∈ files, file.1.fileStem? = some "a" ∧
        ∃ package, .model package "users" ∈ (ofText file.2).references := by
  intro text reference files
  have read : reference ∈ (ofText text).references := by decide +kernel
  have plain : ∀ value ∈ reference.texts, '\'' ∉ value.toList ∧ '"' ∉ value.toList := by decide
  have failed : Project.ofSources (.default "") files = .error (.unknownRef "a" "users") :=
    Project.ofSources_eq_error (by decide +kernel)
  obtain ⟨blocks, literals, unknown⟩ := references_of_calls text (.default "") files
  exact ⟨read, plain, (blocks reference).mp read, literals reference read plain, failed,
    unknown _ _ failed⟩

/-- Two calls joined by an operator begin and end like one call, and are read as one reference to a
model with a name that is written nowhere. -/
theorem joined_calls_read :
    let text := "select \x7b\x7b ref('a') ~ ref('b') \x7d\x7d"
    let reference := ModelReference.model none "a') ~ ref('b"
    (ofText text).references = [reference] ∧
      (¬ ∃ block ∈ blocksOf text.toList, IsCallOf IsLiteral block reference) ∧
      Project.ofSources (.default "")
          [("models/a.sql", "select 1"), ("models/b.sql", "select 1"), ("models/c.sql", text)] =
        .error (.unknownRef "c" "a') ~ ref('b") := by
  intro text reference
  refine ⟨by decide +kernel, ?_, Project.ofSources_eq_error (by decide +kernel)⟩
  rintro ⟨block, listed, argument, rfl, quote, quoted, outside⟩
  have blocks : blocksOf text.toList = ["ref('a') ~ ref('b')".toList] := by decide +kernel
  rw [blocks, List.mem_singleton] at listed
  have same : argument = "'a') ~ ref('b'".toList := by
    have spelled : "ref('a') ~ ref('b')".toList =
        "ref(".toList ++ "'a') ~ ref('b'".toList ++ [')'] := by decide +kernel
    rw [spelled] at listed
    exact List.append_cancel_left (List.append_cancel_right listed)
  have trimmed := quoted.trimChars_eq
  have single : trimChars "'a') ~ ref('b'".toList = '\'' :: "a') ~ ref('b'".toList := by
    decide +kernel
  rw [same, single] at trimmed
  obtain rfl : '\'' = quote := (List.cons.inj trimmed).1
  exact outside (by decide)

end ModelCalls
end SqlPipeline
