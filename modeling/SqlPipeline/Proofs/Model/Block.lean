import Mathlib.Data.List.Chain
import SqlPipeline.Model.Call

/-!
# The blocks of a text

A search for blocks sees nothing but pairs of opening and closing braces.  A text that leaves no
block open can be put before any other text: its blocks come first, and the blocks after it are
those that the other text has alone.
-/

namespace SqlPipeline

namespace Text

/-- A character is not doubled in a text, not even by one more of it after the text. -/
def Undoubled (c : Char) (text : List Char) : Prop :=
  (text ++ [c]).IsChain fun d e => d ≠ c ∨ e ≠ c

instance (c : Char) (text : List Char) : Decidable (Undoubled c text) :=
  inferInstanceAs (Decidable (List.IsChain _ _))

theorem undoubled_nil (c : Char) : Undoubled c [] := .singleton c

theorem undoubled_of_not_mem {c : Char} {text : List Char} (absent : c ∉ text) :
    Undoubled c text := by
  induction text with
  | nil => exact undoubled_nil c
  | cons d text ih =>
    rw [List.mem_cons, not_or] at absent
    refine List.isChain_cons.mpr ⟨fun _ _ => .inl (Ne.symm absent.1), ih absent.2⟩

theorem Undoubled.append {c : Char} {first second : List Char} (front : Undoubled c first)
    (back : Undoubled c second) : Undoubled c (first ++ second) := by
  induction first with
  | nil => exact back
  | cons d first ih =>
    obtain ⟨next, rest⟩ := List.isChain_cons.mp front
    refine List.isChain_cons.mpr ⟨?_, ih rest⟩
    cases first with
    | nil =>
      have different : d ≠ c := (next c rfl).resolve_right (· rfl)
      exact fun _ _ => .inl different
    | cons e first => exact next

/-- A search for a doubled character passes over a text in which it is not doubled. -/
theorem Undoubled.splitFirst?_append {c : Char} {text : List Char} (undoubled : Undoubled c text)
    (rest : List Char) :
    splitFirst? [c, c] (text ++ rest) =
      (splitFirst? [c, c] rest).map fun (before, after) => (text ++ before, after) := by
  induction text with
  | nil => simp
  | cons d text ih =>
    obtain ⟨next, undoubled⟩ := List.isChain_cons.mp undoubled
    have elsewhere : after? [c, c] (d :: (text ++ rest)) = none := by
      rw [after?]
      split
      next same =>
        subst same
        cases text with
        | nil => exact absurd rfl ((next c rfl).resolve_left (· rfl))
        | cons e text => exact after?_cons_of_ne (Ne.symm ((next e rfl).resolve_left (· rfl))) _ _
      next => rfl
    rw [List.cons_append, splitFirst?, elsewhere, ih undoubled, Option.map_map]
    rfl

end Text

namespace ModelCalls

open Text

variable {text front back before content : List Char}

/-- The two characters that open a block. -/
def opening : List Char := ['\x7b', '\x7b']

/-- The two characters that close a block. -/
def closing : List Char := ['\x7d', '\x7d']

/-- The contents of all blocks of a text. -/
def blocksOf (text : List Char) : List (List Char) := blocks (text.length + 1) text

theorem length_lt_of_block {after rest : List Char}
    (opened : splitFirst? opening text = some (before, rest))
    (closed : splitFirst? closing rest = some (content, after)) : after.length < text.length := by
  rw [eq_append_of_splitFirst? opened, eq_append_of_splitFirst? closed]
  simp only [opening, closing, List.length_append, List.length_cons, List.length_nil]
  omega

theorem blocks_eq_of_length_lt {fuel more : Nat} (enough : text.length < fuel)
    (plenty : text.length < more) : blocks fuel text = blocks more text := by
  induction fuel generalizing text more with
  | zero => omega
  | succ fuel ih =>
    obtain ⟨more, rfl⟩ : ∃ rest, more = rest + 1 := ⟨more - 1, by omega⟩
    rw [blocks, blocks]
    split
    · rfl
    next before rest opened =>
      split
      · rfl
      next content after closed =>
        have shorter := length_lt_of_block opened closed
        have first : after.length < fuel := by omega
        have second : after.length < more := by omega
        rw [ih first second]

theorem blocksOf_eq (text : List Char) :
    blocksOf text = match splitFirst? opening text with
      | none => []
      | some (_, rest) => match splitFirst? closing rest with
        | none => []
        | some (content, rest) => trimChars content :: blocksOf rest := by
  rw [blocksOf, blocks]
  change (match splitFirst? opening text with | none => _ | some (_, rest) => _) = _
  split
  · rfl
  next before rest opened =>
    change (match splitFirst? closing rest with | none => _ | some (content, rest) => _) = _
    split
    · rfl
    next content after closed =>
      rw [blocksOf, blocks_eq_of_length_lt (length_lt_of_block opened closed) (Nat.lt_succ_self _)]

/-- Text without opening braces holds no block. -/
theorem blocksOf_append_of_undoubled (free : Undoubled '\x7b' text) (rest : List Char) :
    blocksOf (text ++ rest) = blocksOf rest := by
  rw [blocksOf_eq, blocksOf_eq rest, opening, free.splitFirst?_append]
  cases splitFirst? ['\x7b', '\x7b'] rest <;> rfl

theorem blocksOf_of_undoubled (free : Undoubled '\x7b' text) : blocksOf text = [] := by
  rw [← List.append_nil text, blocksOf_append_of_undoubled free, blocksOf_eq]
  rfl

/-- A block comes before the blocks of the text after it. -/
theorem blocksOf_block (inside : Undoubled '\x7d' content) (rest : List Char) :
    blocksOf (opening ++ content ++ closing ++ rest) = trimChars content :: blocksOf rest := by
  have closed : splitFirst? closing (content ++ (closing ++ rest)) = some (content, rest) := by
    rw [closing, inside.splitFirst?_append, splitFirst?_append]
    simp
  rw [List.append_assoc, List.append_assoc, blocksOf_eq, splitFirst?_append]
  dsimp only
  rw [closed]

/-- A text that leaves no block open. -/
inductive Closed : List Char → Prop
  | text {text : List Char} (free : Undoubled '\x7b' text) : Closed text
  | block {before content rest : List Char} (free : Undoubled '\x7b' before)
      (inside : Undoubled '\x7d' content) (closed : Closed rest) :
      Closed (before ++ (opening ++ content ++ closing ++ rest))

theorem Closed.append (front_closed : Closed front) (back_closed : Closed back) :
    Closed (front ++ back) := by
  induction front_closed with
  | text free =>
    cases back_closed with
    | text rest => exact .text (free.append rest)
    | block before inside closed =>
      rw [← List.append_assoc]
      exact .block (free.append before) inside closed
  | block free inside _ ih =>
    rw [List.append_assoc, List.append_assoc]
    exact .block free inside ih

/-- The blocks of a text that leaves none open come before those of any text after it. -/
theorem Closed.blocksOf_append (front_closed : Closed front) (back : List Char) :
    blocksOf (front ++ back) = blocksOf front ++ blocksOf back := by
  induction front_closed with
  | text free =>
    rw [blocksOf_append_of_undoubled free, blocksOf_of_undoubled free, List.nil_append]
  | block free inside _ ih =>
    rw [List.append_assoc, blocksOf_append_of_undoubled free, blocksOf_append_of_undoubled free,
      List.append_assoc, blocksOf_block inside, blocksOf_block inside, ih, List.cons_append]

/-! ## Calls of texts put together -/

/-- The calls of two texts together, the settings of the second one before those of the first. -/
instance : Append ModelCalls where
  append first second := ⟨first.references ++ second.references,
    first.settings.union second.settings⟩

instance : EmptyCollection ModelCalls := ⟨⟨[], .empty⟩⟩

theorem append_def (first second : ModelCalls) :
    first ++ second = ⟨first.references ++ second.references,
      first.settings.union second.settings⟩ := rfl

@[simp]
theorem references_append (first second : ModelCalls) :
    (first ++ second).references = first.references ++ second.references := rfl

@[simp]
theorem settings_append (first second : ModelCalls) :
    (first ++ second).settings = first.settings.union second.settings := rfl

@[simp]
theorem empty_append (calls : ModelCalls) : ∅ ++ calls = calls := by
  rw [append_def]
  change (⟨[] ++ calls.references, NameMap.empty.union calls.settings⟩ : ModelCalls) = calls
  rw [List.nil_append, NameMap.empty_union]

@[simp]
theorem append_empty (calls : ModelCalls) : calls ++ ∅ = calls := by
  rw [append_def]
  change (⟨calls.references ++ [], calls.settings.union .empty⟩ : ModelCalls) = calls
  rw [List.append_nil, NameMap.union_empty]

theorem append_assoc (first second third : ModelCalls) :
    first ++ second ++ third = first ++ (second ++ third) := by
  simp only [append_def, List.append_assoc, NameMap.union_assoc]

/-- What a block says. -/
def ofBlock (content : List Char) : ModelCalls := addBlock ∅ content

theorem addBlock_eq_append (calls : ModelCalls) (content : List Char) :
    addBlock calls content = calls ++ ofBlock content := by
  rw [ofBlock, addBlock, addBlock]
  split
  · rfl
  · split
    · rfl
    · split
      · rw [append_def]
        change _ = (⟨calls.references ++ [], _⟩ : ModelCalls)
        rw [List.append_nil]
        change _ = (⟨_, calls.settings.union (NameMap.empty.union _)⟩ : ModelCalls)
        rw [NameMap.empty_union]
      · exact (append_empty calls).symm

theorem foldl_addBlock (contents : List (List Char)) (calls : ModelCalls) :
    contents.foldl addBlock calls = calls ++ contents.foldl addBlock ∅ := by
  induction contents generalizing calls with
  | nil => exact (append_empty calls).symm
  | cons content contents ih =>
    rw [List.foldl_cons, List.foldl_cons, ih, ih (addBlock ∅ content), addBlock_eq_append,
      addBlock_eq_append ∅, empty_append, append_assoc]

theorem ofText_eq_foldl (text : String) :
    ofText text = (blocksOf text.toList).foldl addBlock ∅ := by
  rw [ofText, blocksOf, String.length_toList]
  rfl

/-- A text without opening braces says nothing. -/
theorem ofText_of_undoubled {text : String} (free : Undoubled '\x7b' text.toList) :
    ofText text = ∅ := by
  rw [ofText_eq_foldl, blocksOf_of_undoubled free]
  rfl

/-- What a text says that leaves no block open stands before what any text after it says. -/
theorem ofText_append {front : String} (closed : Closed front.toList) (back : String) :
    ofText (front ++ back) = ofText front ++ ofText back := by
  rw [ofText_eq_foldl, String.toList_append, closed.blocksOf_append, List.foldl_append,
    foldl_addBlock, ← ofText_eq_foldl, ← ofText_eq_foldl]

end ModelCalls
end SqlPipeline
