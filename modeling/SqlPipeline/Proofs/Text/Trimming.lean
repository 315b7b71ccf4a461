import Mathlib.Data.List.DropRight
import SqlPipeline.Text.Blank

/-!
# Trimmed texts

Trimming takes blanks from the ends of a text and nothing else.  What it leaves neither begins nor
ends with a blank, and such a text is left as it is.
-/

namespace SqlPipeline.Text

variable {p : Char → Bool} {c : Char} {core text : List Char}

/-! ## Ends of texts -/

theorem dropEndWhile_prefix_self (p : Char → Bool) (text : List Char) :
    dropEndWhile p text <+: text :=
  List.rdropWhile_prefix p text

theorem exists_dropEndWhile (p : Char → Bool) (text : List Char) :
    ∃ back, (∀ c ∈ back, p c = true) ∧ text = dropEndWhile p text ++ back := by
  refine ⟨(text.reverse.takeWhile p).reverse, fun c member => ?_, ?_⟩
  · exact List.mem_takeWhile_imp (List.mem_reverse.mp member)
  · rw [dropEndWhile, ← List.reverse_append, List.takeWhile_append_dropWhile, List.reverse_reverse]

/-- Dropping characters from the end stops at one that fails the test. -/
theorem eq_false_of_getLast?_dropEndWhile (last : (dropEndWhile p text).getLast? = some c) :
    p c = false := by
  rw [dropEndWhile, List.getLast?_reverse] at last
  simpa [last] using List.head?_dropWhile_not p text.reverse

theorem dropEndWhile_of_last (stop : ∀ c, text.getLast? = some c → p c = false) :
    dropEndWhile p text = text := by
  have kept := dropEndWhile_append_of_last (List.forall_mem_nil fun c => p c = true) stop
  rwa [List.append_nil] at kept

theorem head?_of_prefix_of_some (short : core <+: text) (first : core.head? = some c) :
    text.head? = some c := by
  obtain ⟨rest, rfl⟩ := short
  rw [List.head?_append, first, Option.some_or]

/-! ## Blanks -/

/-- A text that neither begins nor ends with a blank. -/
structure IsTrimmed (text : List Char) : Prop where
  first : ∀ c, text.head? = some c → isBlank c = false
  last : ∀ c, text.getLast? = some c → isBlank c = false

/-- Trimming takes nothing but blanks away. -/
theorem exists_trimChars (text : List Char) :
    ∃ front back, (∀ c ∈ front, isBlank c = true) ∧ (∀ c ∈ back, isBlank c = true) ∧
      text = front ++ trimChars text ++ back := by
  obtain ⟨back, after, same⟩ := exists_dropEndWhile isBlank (text.dropWhile isBlank)
  refine ⟨text.takeWhile isBlank, back, fun c => List.mem_takeWhile_imp, after, ?_⟩
  rw [List.append_assoc, trimChars, ← same, List.takeWhile_append_dropWhile]

theorem isTrimmed_trimChars (text : List Char) : IsTrimmed (trimChars text) := by
  refine ⟨fun c first => ?_, fun c last => eq_false_of_getLast?_dropEndWhile last⟩
  have start := head?_of_prefix_of_some (dropEndWhile_prefix_self isBlank _) first
  simpa [start] using List.head?_dropWhile_not isBlank text

theorem toList_trim (text : String) : (trim text).toList = trimChars text.toList :=
  String.toList_ofList

theorem isTrimmed_trim (text : String) : IsTrimmed (trim text).toList := by
  rw [toList_trim]
  exact isTrimmed_trimChars text.toList

theorem IsTrimmed.trimChars_eq (trimmed : IsTrimmed text) : trimChars text = text := by
  cases text with
  | nil => rfl
  | cons c text =>
    have kept := trimChars_append (List.forall_mem_nil _) (List.forall_mem_nil _)
      (List.cons_ne_nil c text) trimmed.first trimmed.last
    rwa [List.nil_append, List.append_nil] at kept

/-- A trimmed part of a text is a part of what trimming leaves. -/
theorem IsTrimmed.infix_trimChars (trimmed : IsTrimmed core) (inside : core <:+: text) :
    core <:+: trimChars text := by
  obtain ⟨front, back, rfl⟩ := inside
  by_cases empty : core = []
  · rw [empty]
    exact List.nil_infix
  obtain ⟨after, blank, whole⟩ := exists_dropEndWhile isBlank back
  generalize kept : dropEndWhile isBlank back = rest at whole
  have start : ∀ c, (core ++ back).head? = some c → isBlank c = false := by
    intro c here
    rw [List.head?_append_of_ne_nil _ empty] at here
    exact trimmed.first c here
  have stop : ∀ c, (front.dropWhile isBlank ++ core ++ rest).getLast? = some c →
      isBlank c = false := by
    intro c last
    by_cases none : rest = []
    · rw [none, List.append_nil, List.getLast?_append_of_ne_nil _ empty] at last
      exact trimmed.last c last
    · rw [List.getLast?_append_of_ne_nil _ none, ← kept] at last
      exact eq_false_of_getLast?_dropEndWhile last
  refine ⟨front.dropWhile isBlank, rest, ?_⟩
  rw [trimChars, List.append_assoc front, dropWhile_append_of_stop start, whole,
    ← List.append_assoc, ← List.append_assoc, dropEndWhile_append_of_last blank stop]

/-- A beginning of a trimmed text is trimmed if it does not end with a blank. -/
theorem IsTrimmed.of_prefix_of_last (trimmed : IsTrimmed text) (short : core <+: text)
    (last : ∀ c, core.getLast? = some c → isBlank c = false) : IsTrimmed core :=
  ⟨fun c first => trimmed.first c (head?_of_prefix_of_some short first), last⟩

end SqlPipeline.Text
