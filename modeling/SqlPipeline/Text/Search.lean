/-!
# Searching in texts

The first occurrence of a pattern splits a text into what stands before it and what stands after
it, so putting the three parts together gives the text back.
-/

namespace SqlPipeline.Text

/-- The rest of a text after a given beginning. -/
def after? : List Char → List Char → Option (List Char)
  | [], text => some text
  | _ :: _, [] => none
  | c :: pattern, d :: text => if c = d then after? pattern text else none

/-- The text before the first occurrence of a pattern, and the text after it. -/
def splitFirst? (pattern : List Char) : List Char → Option (List Char × List Char)
  | [] => if pattern.isEmpty then some ([], []) else none
  | c :: text =>
    match after? pattern (c :: text) with
    | some rest => some ([], rest)
    | none => (splitFirst? pattern text).map fun (before, rest) => (c :: before, rest)

/-- Whether a pattern occurs in a text. -/
def occursIn (pattern text : List Char) : Bool := (splitFirst? pattern text).isSome

/-- The parts of a text between the occurrences of a character. -/
def splitOnChar (separator : Char) : List Char → List (List Char)
  | [] => [[]]
  | c :: text =>
    if c = separator then [] :: splitOnChar separator text
    else match splitOnChar separator text with
      | [] => [[c]]
      | part :: parts => (c :: part) :: parts

theorem eq_append_of_after? {pattern text rest : List Char} (h : after? pattern text = some rest) :
    text = pattern ++ rest := by
  induction pattern generalizing text with
  | nil => simpa [after?] using h
  | cons c pattern ih =>
    cases text with
    | nil => simp [after?] at h
    | cons d text =>
      rw [after?] at h
      split at h
      next same => rw [same, ih h]; rfl
      next => simp at h

theorem eq_append_of_splitFirst? {pattern text before rest : List Char}
    (h : splitFirst? pattern text = some (before, rest)) : text = before ++ pattern ++ rest := by
  induction text generalizing before with
  | nil =>
    rw [splitFirst?] at h
    split at h
    next empty =>
      simp only [List.isEmpty_iff] at empty
      simp_all
    next => simp at h
  | cons c text ih =>
    rw [splitFirst?] at h
    split at h
    next found =>
      simp only [Option.some.injEq, Prod.mk.injEq] at h
      obtain ⟨rfl, rfl⟩ := h
      simpa using eq_append_of_after? found
    next =>
      obtain ⟨⟨before', rest'⟩, found, same⟩ := Option.map_eq_some_iff.mp h
      simp only [Prod.mk.injEq] at same
      obtain ⟨rfl, rfl⟩ := same
      rw [ih found]
      rfl

@[simp]
theorem after?_append (pattern rest : List Char) :
    after? pattern (pattern ++ rest) = some rest := by
  induction pattern with
  | nil => rfl
  | cons c pattern ih => rw [List.cons_append, after?, if_pos rfl, ih]

theorem after?_cons_of_ne {c d : Char} (different : c ≠ d) (pattern text : List Char) :
    after? (c :: pattern) (d :: text) = none := by
  rw [after?, if_neg different]

/-- A pattern that begins here is found here. -/
theorem splitFirst?_append (pattern rest : List Char) :
    splitFirst? pattern (pattern ++ rest) = some ([], rest) := by
  have found := after?_append pattern rest
  cases same : pattern ++ rest with
  | nil =>
    obtain ⟨rfl, rfl⟩ := List.append_eq_nil_iff.mp same
    rfl
  | cons c text =>
    rw [same] at found
    rw [splitFirst?, found]

/-- A search passes over a text without the first character of the pattern. -/
theorem splitFirst?_append_of_not_mem {c : Char} {text : List Char} (absent : c ∉ text)
    (pattern rest : List Char) :
    splitFirst? (c :: pattern) (text ++ rest) =
      (splitFirst? (c :: pattern) rest).map fun (before, after) => (text ++ before, after) := by
  induction text with
  | nil => simp
  | cons d text ih =>
    rw [List.mem_cons, not_or] at absent
    rw [List.cons_append, splitFirst?, after?_cons_of_ne absent.1, ih absent.2, Option.map_map]
    rfl

theorem splitOnChar_of_not_mem {separator : Char} {text : List Char} (absent : separator ∉ text) :
    splitOnChar separator text = [text] := by
  induction text with
  | nil => rfl
  | cons c text ih =>
    rw [List.mem_cons, not_or] at absent
    rw [splitOnChar, if_neg (Ne.symm absent.1), ih absent.2]

theorem splitOnChar_ne_nil (separator : Char) (text : List Char) :
    splitOnChar separator text ≠ [] := by
  cases text with
  | nil => exact List.cons_ne_nil _ _
  | cons c text =>
    rw [splitOnChar]
    split
    · exact List.cons_ne_nil _ _
    · split <;> exact List.cons_ne_nil _ _

theorem not_mem_of_mem_splitOnChar {separator : Char} {text part : List Char}
    (member : part ∈ splitOnChar separator text) : separator ∉ part := by
  induction text generalizing part with
  | nil => simp_all [splitOnChar]
  | cons c text ih =>
    rw [splitOnChar] at member
    split at member
    · rcases List.mem_cons.mp member with rfl | later
      · exact List.not_mem_nil
      · exact ih later
    next different =>
      split at member
      next empty => exact absurd empty (splitOnChar_ne_nil separator text)
      next first others splitted =>
        rw [splitted] at ih
        rcases List.mem_cons.mp member with rfl | later
        · simpa [Ne.symm different] using ih List.mem_cons_self
        · exact ih (List.mem_cons_of_mem _ later)

/-- A separator parts what stands before it from what stands after it. -/
theorem splitOnChar_append_separator (separator : Char) (text rest : List Char) :
    splitOnChar separator (text ++ separator :: rest) =
      splitOnChar separator text ++ splitOnChar separator rest := by
  induction text with
  | nil => simp [splitOnChar]
  | cons c text ih =>
    rw [List.cons_append, splitOnChar, splitOnChar, ih]
    split
    · rfl
    · cases splitted : splitOnChar separator text with
      | nil => exact absurd splitted (splitOnChar_ne_nil separator text)
      | cons part parts => rfl

theorem splitOnChar_append_cons {separator : Char} {text : List Char} (absent : separator ∉ text)
    (rest : List Char) :
    splitOnChar separator (text ++ separator :: rest) = text :: splitOnChar separator rest := by
  rw [splitOnChar_append_separator, splitOnChar_of_not_mem absent]
  rfl

end SqlPipeline.Text
