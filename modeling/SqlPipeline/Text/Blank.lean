/-!
# Blank characters

The blank characters are those with the Unicode property `White_Space`. Trimming removes them from
the ends of a text; whatever is left begins and ends with a character that is not blank.
-/

namespace SqlPipeline.Text

/-- Whether a character has the property `White_Space`. -/
def isBlank (c : Char) : Bool :=
  let n := c.toNat
  (9 ≤ n && n ≤ 13) || n == 0x20 || n == 0x85 || n == 0xA0 || n == 0x1680
    || (0x2000 ≤ n && n ≤ 0x200A) || n == 0x2028 || n == 0x2029 || n == 0x202F || n == 0x205F
    || n == 0x3000

/-- Remove characters that satisfy a test from the end. -/
def dropEndWhile (p : Char → Bool) (text : List Char) : List Char :=
  (text.reverse.dropWhile p).reverse

/-- Remove blanks from both ends of a list of characters. -/
def trimChars (text : List Char) : List Char :=
  dropEndWhile isBlank (text.dropWhile isBlank)

/-- Remove blanks from both ends. -/
def trim (text : String) : String := String.ofList (trimChars text.toList)

/-- Dropping characters stops at the second text if that begins with another character. -/
theorem dropWhile_append_of_stop {p : Char → Bool} {core : List Char}
    (stop : ∀ c, core.head? = some c → p c = false) (front : List Char) :
    (front ++ core).dropWhile p = front.dropWhile p ++ core := by
  induction front with
  | nil =>
    cases core with
    | nil => rfl
    | cons c core =>
      rw [List.nil_append, List.dropWhile_cons, stop c rfl, if_neg Bool.false_ne_true]
      rfl
  | cons c front ih =>
    rw [List.cons_append, List.dropWhile_cons, List.dropWhile_cons]
    split
    · exact ih
    · rfl

theorem dropWhile_append_of_head {p : Char → Bool} {front core : List Char}
    (skipped : ∀ c ∈ front, p c = true) (stop : ∀ c, core.head? = some c → p c = false) :
    (front ++ core).dropWhile p = core := by
  have none : front.dropWhile p = [] := by
    have all : (front ++ []).dropWhile p = [].dropWhile p := List.dropWhile_append_of_pos skipped
    rwa [List.append_nil] at all
  rw [dropWhile_append_of_stop stop, none, List.nil_append]

theorem takeWhile_append_of_head {p : Char → Bool} {front core : List Char}
    (taken : ∀ c ∈ front, p c = true) (stop : ∀ c, core.head? = some c → p c = false) :
    (front ++ core).takeWhile p = front := by
  rw [List.takeWhile_append_of_pos taken]
  cases core with
  | nil => rw [List.takeWhile_nil, List.append_nil]
  | cons c core =>
    rw [List.takeWhile_cons, stop c rfl, if_neg Bool.false_ne_true, List.append_nil]

theorem dropEndWhile_append_of_last {p : Char → Bool} {core back : List Char}
    (skipped : ∀ c ∈ back, p c = true) (stop : ∀ c, core.getLast? = some c → p c = false) :
    dropEndWhile p (core ++ back) = core := by
  have reversed : ∀ c ∈ back.reverse, p c = true :=
    fun c member => skipped c (List.mem_reverse.mp member)
  have last : ∀ c, core.reverse.head? = some c → p c = false :=
    fun c first => stop c (List.head?_reverse.symm.trans first)
  rw [dropEndWhile, List.reverse_append, dropWhile_append_of_head reversed last,
    List.reverse_reverse]

/-- Trimming removes the blanks around a text that begins and ends with other characters. -/
theorem trimChars_append {front core back : List Char} (before : ∀ c ∈ front, isBlank c = true)
    (after : ∀ c ∈ back, isBlank c = true) (nonempty : core ≠ [])
    (first : ∀ c, core.head? = some c → isBlank c = false)
    (last : ∀ c, core.getLast? = some c → isBlank c = false) :
    trimChars (front ++ core ++ back) = core := by
  have start : ∀ c, (core ++ back).head? = some c → isBlank c = false := by
    intro c here
    cases core with
    | nil => exact absurd rfl nonempty
    | cons d core => exact first c here
  rw [trimChars, List.append_assoc, dropWhile_append_of_head before start,
    dropEndWhile_append_of_last after last]

end SqlPipeline.Text
