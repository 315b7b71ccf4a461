import Mathlib.Data.List.Infix
import SqlPipeline.Text.Search

/-!
# Where texts are split

A text is split at the first occurrence of a pattern: no occurrence begins before it, not even one
that overlaps with it.  A text that ends each of its lines has the lines that it was made of just if
none of them is broken.
-/

namespace SqlPipeline.Text

variable {pattern text before rest : List Char} {c : Char}

theorem after?_eq_some_iff : after? pattern text = some rest ↔ text = pattern ++ rest := by
  constructor
  · exact eq_append_of_after?
  · rintro rfl
    exact after?_append pattern rest

theorem after?_eq_none_iff : after? pattern text = none ↔ ¬pattern <+: text := by
  rw [Option.eq_none_iff_forall_ne_some]
  constructor
  · rintro absent ⟨rest, rfl⟩
    exact absent rest (after?_append pattern rest)
  · rintro absent rest found
    exact absent ⟨rest, (after?_eq_some_iff.mp found).symm⟩

theorem splitFirst?_eq_none_iff : splitFirst? pattern text = none ↔ ¬pattern <:+: text := by
  induction text with
  | nil => cases pattern <;> simp [splitFirst?]
  | cons c text ih =>
    rw [splitFirst?, List.infix_cons_iff, not_or, ← ih, ← after?_eq_none_iff]
    cases after? pattern (c :: text) <;> simp

/-- No occurrence begins before the first one. -/
theorem not_infix_of_splitFirst? (nonempty : pattern ≠ [])
    (found : splitFirst? pattern text = some (before, rest)) :
    ¬pattern <:+: before ++ pattern.dropLast := by
  have shorter : pattern.dropLast.length < pattern.length := by
    have positive := List.length_pos_iff.mpr nonempty
    rw [List.length_dropLast]
    omega
  induction text generalizing before with
  | nil =>
    cases pattern with
    | nil => exact absurd rfl nonempty
    | cons c pattern => cases found
  | cons c text ih =>
    rw [splitFirst?] at found
    split at found
    · cases found
      intro within
      exact absurd within.length_le (Nat.not_le.mpr shorter)
    next elsewhere =>
      obtain ⟨⟨front, back⟩, later, same⟩ := Option.map_eq_some_iff.mp found
      cases same
      rw [List.cons_append, List.infix_cons_iff, not_or]
      refine ⟨fun here => ?_, ih later⟩
      have whole : c :: (front ++ pattern.dropLast) <+: c :: text := by
        rw [List.prefix_cons_inj, eq_append_of_splitFirst? later, List.append_assoc,
          List.prefix_append_right_inj]
        exact (List.dropLast_prefix pattern).trans (List.prefix_append pattern rest)
      exact after?_eq_none_iff.mp elsewhere (here.trans whole)

/-- A text is split at an occurrence if none begins before it. -/
theorem splitFirst?_append_of_first (first : ¬pattern <:+: before ++ pattern.dropLast)
    (rest : List Char) :
    splitFirst? pattern (before ++ pattern ++ rest) = some (before, rest) := by
  induction before with
  | nil => exact splitFirst?_append pattern rest
  | cons c before ih =>
    rw [List.cons_append, List.infix_cons_iff, not_or] at first
    have elsewhere : after? pattern (c :: (before ++ pattern ++ rest)) = none := by
      rw [after?_eq_none_iff]
      intro here
      have long : pattern.length ≤ (c :: (before ++ pattern.dropLast)).length := by
        rw [List.length_cons, List.length_append, List.length_dropLast]
        omega
      have whole : c :: (before ++ pattern.dropLast) <+: c :: (before ++ pattern ++ rest) := by
        rw [List.prefix_cons_inj, List.append_assoc, List.prefix_append_right_inj]
        exact (List.dropLast_prefix pattern).trans (List.prefix_append pattern rest)
      exact first.1 (List.prefix_of_prefix_length_le here whole long)
    rw [List.cons_append, List.cons_append, splitFirst?, elsewhere, ih first.2]
    rfl

/-! ## Lines -/

/-- The text of some lines, each with its end. -/
def unlines (lines : List (List Char)) : List Char := lines.flatMap (· ++ ['\n'])

/-- The lines of a text that ends each of them. -/
def lines (text : List Char) : List (List Char) := (splitOnChar '\n' text).dropLast

theorem length_splitOnChar (separator : Char) (text : List Char) :
    (splitOnChar separator text).length = text.count separator + 1 := by
  induction text with
  | nil => rfl
  | cons c text ih =>
    rw [splitOnChar]
    split
    next same => rw [List.length_cons, ih, same, List.count_cons_self]
    next different =>
      rw [List.count_cons_of_ne different, ← ih]
      cases splitted : splitOnChar separator text with
      | nil => exact absurd splitted (splitOnChar_ne_nil separator text)
      | cons part parts => rfl

theorem length_lines (text : List Char) : (lines text).length = text.count '\n' := by
  rw [lines, List.length_dropLast, length_splitOnChar, Nat.add_sub_cancel]

theorem lines_append {line : List Char} (whole : '\n' ∉ line) (text : List Char) :
    lines (line ++ '\n' :: text) = line :: lines text := by
  rw [lines, splitOnChar_append_cons whole,
    List.dropLast_cons_of_ne_nil (splitOnChar_ne_nil '\n' text), lines]

/-- Lines without a break are the lines of their text. -/
theorem lines_unlines {parts : List (List Char)} (whole : ∀ part ∈ parts, '\n' ∉ part) :
    lines (unlines parts) = parts := by
  induction parts with
  | nil => rfl
  | cons part parts ih =>
    obtain ⟨here, later⟩ := List.forall_mem_cons.mp whole
    rw [unlines, List.flatMap_cons, List.append_assoc, List.singleton_append, lines_append here]
    exact congrArg (part :: ·) (ih later)

theorem count_unlines_cons (part : List Char) (parts : List (List Char)) :
    (unlines (part :: parts)).count '\n' = part.count '\n' + (unlines parts).count '\n' + 1 := by
  rw [unlines, List.flatMap_cons, ← unlines, List.count_append, List.count_append,
    List.count_singleton_self]
  omega

theorem length_le_count_unlines (parts : List (List Char)) :
    parts.length ≤ (unlines parts).count '\n' := by
  induction parts with
  | nil => exact Nat.le_refl 0
  | cons part parts ih =>
    rw [count_unlines_cons, List.length_cons]
    omega

/-- A text has as many lines as it was made of just if none of them is broken. -/
theorem length_lines_unlines_iff {parts : List (List Char)} :
    (lines (unlines parts)).length = parts.length ↔ ∀ part ∈ parts, '\n' ∉ part := by
  rw [length_lines]
  induction parts with
  | nil => simp [unlines]
  | cons part parts ih =>
    have least := length_le_count_unlines parts
    rw [List.forall_mem_cons, ← ih, ← List.count_eq_zero, count_unlines_cons, List.length_cons]
    omega

end SqlPipeline.Text
