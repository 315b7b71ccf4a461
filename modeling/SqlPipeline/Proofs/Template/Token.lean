import SqlPipeline.Proofs.Model.Page
import SqlPipeline.Template.Token

/-!
# The tokens of a page

The template language reads the calls of a page token by token.  It is stricter than the search for
calls about what is blank, about keywords and about backslashes, but it does not mind the signs
inside the braces and the blanks before the arguments: every block of a page gives the tokens of its
call.  Comments give none, and assignments give their own.
-/

namespace SqlPipeline

/-! ## What the template language can read -/

section

open Template

/-- The template language takes the blanks for blanks. -/
def Gap.Readable (gap : Gap) : Prop := ∀ c ∈ gap.chars, isGap c = true

theorem Gap.readable_empty : Gap.empty.Readable := List.forall_mem_nil _

theorem Gap.readable_space : Gap.space.Readable := List.forall_mem_singleton.mpr (by decide)

/-- An item whose text means itself to the template language. -/
structure Item.Readable (item : Item) : Prop where
  before : item.before.Readable
  plain : '\\' ∉ item.literal.content
  after : item.after.Readable

/-- Names that the template language does not take for keywords of a call. -/
def operatorNames : List String := ["not", "true", "True", "false", "False", "none", "None"]

/-- A keyword that is a name of the template language. -/
structure Keyword.Readable (keyword : Keyword) : Prop where
  before : keyword.before.Readable
  starts : keyword.name.head?.all startsName = true
  continues : ∀ c ∈ keyword.name, continuesName c = true
  free : keyword.text ∉ operatorNames
  after : keyword.after.Readable

/-- An argument that the template language can read. -/
structure ReadableArgument (argument : Argument) : Prop where
  keyword : ∀ keyword, argument.1 = some keyword → keyword.Readable
  item : argument.2.Readable

/-- A block that the template language can read. -/
structure PlainBlock.Readable (block : PlainBlock) : Prop where
  before : block.before.Readable
  spacing : block.spacing.Readable
  arguments : ∀ argument ∈ block.call.arguments, ReadableArgument argument
  /-- A comma stands after an argument. -/
  comma : ∀ gap, block.comma = some gap → gap.Readable ∧ block.call.arguments ≠ []
  after : block.after.Readable

/-- Names that an assignment must not give: those that calls look up, and words of the language. -/
def keptNames : List String := ["ref", "source", "config", "refs", "sources", "loop", "self", "in"]

/-- An assignment that the template language can read and that calls do not notice. -/
structure PlainAssignment.Readable (assignment : PlainAssignment) : Prop where
  before : assignment.before.Readable
  name : assignment.name.Readable
  item : assignment.item.Readable
  other : assignment.name.text ∉ keptNames

/-- A tag that the template language can read. -/
def PlainTag.Readable : PlainTag → Prop
  | .block call => call.Readable
  | .comment _ => True
  | .assignment binding => binding.Readable

/-- A page that the template language can read. -/
def Page.Readable (page : Page) : Prop := ∀ part ∈ page.parts, part.2.Readable

theorem Page.Readable.block {page : Page} {block : PlainBlock} (readable : page.Readable)
    (listed : block ∈ page.blocks) : block.Readable := by
  obtain ⟨⟨text, tag⟩, member, same⟩ := List.mem_filterMap.mp listed
  have tagged := readable _ member
  cases tag with
  | block held =>
    cases same
    exact tagged
  | comment => cases same
  | assignment => cases same

/-- The tokens of an argument. -/
def Argument.tokens : Argument → List Token
  | (none, item) => [.text item.literal.value]
  | (some keyword, item) => [.ident keyword.text, .symbol "=", .text item.literal.value]

/-- The tokens of arguments with commas between them. -/
def argumentTokens : List Argument → List Token
  | [] => []
  | first :: rest =>
    Argument.tokens first ++ rest.flatMap fun argument => .symbol "," :: argument.tokens

/-- The token of a comma after the last argument, if there is one. -/
def lastCommaTokens (comma : Bool) : List Token := if comma then [.symbol ","] else []

/-- The tokens of a call, perhaps with a comma after the last argument. -/
def PlainCall.tokens (call : PlainCall) (comma : Bool) : List Token :=
  .ident call.function :: .symbol "(" ::
    (argumentTokens call.arguments ++ lastCommaTokens comma ++ [.symbol ")"])

/-- The tokens of an assignment. -/
def PlainAssignment.tokens (assignment : PlainAssignment) : List Token :=
  .ident "set" :: Argument.tokens (some assignment.name, assignment.item)

end

namespace Template

open Text

variable {closing text rest last : List Char} {open_brackets after_brackets : Int}
  {tokens more : List Token} {token : Token}

/-! ## Moving the cursor -/

theorem Cursor.rest_skipWhile (cursor : Cursor) (p : Char → Bool) :
    (cursor.skipWhile p).rest = cursor.rest.dropWhile p := by
  have rest : (cursor.rest.takeWhile p ++ cursor.rest.dropWhile p).drop
      (cursor.rest.takeWhile p).length = cursor.rest.dropWhile p := List.drop_left
  rw [List.takeWhile_append_dropWhile] at rest
  exact rest

theorem Cursor.skipWhile_cons {p : Char → Bool} {c : Char} (skipped : p c = true)
    (rest : List Char) (line : Nat) :
    ∃ next, Cursor.skipWhile ⟨c :: rest, line⟩ p = Cursor.skipWhile ⟨rest, next⟩ p := by
  refine ⟨line + [c].count '\n', ?_⟩
  have taken : (c :: rest).takeWhile p = c :: rest.takeWhile p := List.takeWhile_cons_of_pos skipped
  simp only [Cursor.skipWhile, Cursor.advance, taken, List.length_cons, List.drop_succ_cons,
    List.take_succ_cons, Cursor.mk.injEq, true_and]
  rw [← List.singleton_append, List.count_append, Nat.add_assoc]

theorem Cursor.skipWhile_of_not {p : Char → Bool} {c : Char} (stops : p c = false)
    (rest : List Char) (line : Nat) :
    Cursor.skipWhile ⟨c :: rest, line⟩ p = ⟨c :: rest, line⟩ := by
  rw [Cursor.skipWhile, List.takeWhile_cons, stops, if_neg Bool.false_ne_true]
  rfl

/-! ## Tokens of a tag -/

/-- From the front of a text on, with a number of open brackets, reading the inside of a tag takes
some tokens and comes to the rest of the text. -/
inductive Passes (closing : List Char) : Int → List Char → List Token → Int → List Char → Prop
  | done {brackets : Int} {rest : List Char} : Passes closing brackets rest [] brackets rest
  | gap {brackets last_brackets : Int} {c : Char} {text rest : List Char} {tokens : List Token}
      (blank : isGap c = true) (passes : Passes closing brackets text tokens last_brackets rest) :
      Passes closing brackets (c :: text) tokens last_brackets rest
  | token {brackets last_brackets : Int} {c : Char} {text rest : List Char} {token : Token}
      {tokens : List Token} {width : Nat} (visible : isGap c = false)
      (inside : brackets = 0 → tagEnd? closing (c :: text) = none)
      (read : insideToken (c :: text) = .ok (token, width + 1))
      (passes : Passes closing (brackets + bracketChange token) (text.drop width) tokens
        last_brackets rest) :
      Passes closing brackets (c :: text) (token :: tokens) last_brackets rest

theorem Passes.trans {middle_brackets : Int} {middle : List Char}
    (first : Passes closing open_brackets text tokens middle_brackets middle)
    (second : Passes closing middle_brackets middle more after_brackets last) :
    Passes closing open_brackets text (tokens ++ more) after_brackets last := by
  induction first with
  | done => exact second
  | gap blank _ ih => exact .gap blank (ih second)
  | token visible inside read _ ih => exact .token visible inside read (ih second)

theorem Passes.blanks {gap : List Char} (blank : ∀ c ∈ gap, isGap c = true)
    (brackets : Int) (rest : List Char) :
    Passes closing brackets (gap ++ rest) [] brackets rest := by
  induction gap with
  | nil => exact .done
  | cons c gap ih =>
    obtain ⟨first, later⟩ := List.forall_mem_cons.mp blank
    exact .gap first (ih later)

/-- The tokens that are passed are those that reading gives. -/
theorem Passes.readTokens (passes : Passes closing open_brackets text tokens after_brackets last)
    (fuel line : Nat) (enough : text.length < fuel) :
    ∃ located fuel' line', located.map Prod.fst = tokens ∧ last.length < fuel' ∧
      readTokens fuel (.inside closing open_brackets) ⟨text, line⟩ =
        located ++ Template.readTokens fuel' (.inside closing after_brackets) ⟨last, line'⟩ := by
  induction passes generalizing fuel line with
  | done => exact ⟨[], fuel, line, rfl, enough, rfl⟩
  | @gap brackets _ c text _ _ blank _ ih =>
    obtain ⟨next, same⟩ := Cursor.skipWhile_cons blank text line
    rw [List.length_cons] at enough
    obtain ⟨located, fuel', line', spelled, shorter, reads⟩ :=
      ih fuel next (by omega)
    refine ⟨located, fuel', line', spelled, shorter, ?_⟩
    rw [← reads]
    obtain ⟨fuel, rfl⟩ : ∃ less, fuel = less + 1 := ⟨fuel - 1, by omega⟩
    rw [Template.readTokens, Template.readTokens, same]
  | @token brackets _ c text _ token _ width visible inside read _ ih =>
    obtain ⟨fuel, rfl⟩ : ∃ less, fuel = less + 1 := ⟨fuel - 1, by omega⟩
    rw [List.length_cons] at enough
    have ending : (if brackets = 0 then tagEnd? closing (c :: text) else none) = none := by
      split
      next zero => exact inside zero
      next => rfl
    have dropped : (text.drop width).length ≤ text.length := by
      rw [List.length_drop]
      omega
    obtain ⟨located, fuel', line', spelled, shorter, reads⟩ :=
      ih fuel (line + ((c :: text).take (width + 1)).count '\n') (by omega)
    refine ⟨(token, line) :: located, fuel', line', congrArg _ spelled, shorter, ?_⟩
    rw [Template.readTokens, Cursor.skipWhile_of_not visible]
    dsimp only
    rw [if_neg (by simp), ending, read]
    exact congrArg _ reads

/-! ## Single tokens -/

/-- What closes the tags of expressions and of statements. -/
def tagClosings : List (List Char) := [ModelCalls.closing, ['%', '\x7d']]

theorem tagEnd?_of_head (tag : closing ∈ tagClosings) {c : Char}
    (different : c ∉ ['-', '+', '\x7d', '%']) (text : List Char) :
    tagEnd? closing (c :: text) = none := by
  simp only [List.mem_cons, List.not_mem_nil, or_false, not_or] at different
  have control : controlOf (some c) = (.keep, 0) := by
    rw [controlOf]
    · simpa using different.1
    · simpa using different.2.1
  rw [tagEnd?, List.head?_cons, control]
  rcases List.mem_pair.mp tag with rfl | rfl
  · simp [ModelCalls.closing, List.isPrefixOf, Ne.symm different.2.2.1]
  · simp [List.isPrefixOf, Ne.symm different.2.2.2]

/-- The first characters of long symbols. -/
theorem not_long_of_head {c : Char} (single : c ∉ ['/', '*', '=', '!', '>', '<'])
    (text : List Char) : longSymbols.contains (String.ofList ((c :: text).take 2)) = false := by
  have heads : ∀ symbol ∈ longSymbols,
      (symbol.toList.head?.all (['/', '*', '=', '!', '>', '<'].contains ·)) = true := by decide
  refine Bool.eq_false_iff.mpr fun long => single ?_
  have first := heads _ (List.contains_iff_mem.mp long)
  rw [String.toList_ofList, List.take_succ_cons, List.head?_cons, Option.all_some] at first
  exact List.contains_iff_mem.mp first

theorem insideToken_bracket {c : Char} (listed : c ∈ ['(', ')', ',']) (rest : List Char) :
    insideToken (c :: rest) = .ok (.symbol (String.singleton c), 1) := by
  have brackets : ∀ c ∈ ['(', ')', ','], shortSymbols.contains c = true ∧
      c ∉ ['/', '*', '=', '!', '>', '<'] := List.all_iff_forall_prop.mp (by decide)
  obtain ⟨short, single⟩ := brackets c listed
  rw [insideToken]
  dsimp only
  rw [not_long_of_head single, if_neg Bool.false_ne_true, if_pos short]

theorem insideToken_equals (rest : List Char) (single : rest.head? ≠ some '=') :
    insideToken ('=' :: rest) = .ok (.symbol "=", 1) := by
  have pair : longSymbols.contains (String.ofList (('=' :: rest).take 2)) = false := by
    cases rest with
    | nil => decide
    | cons c rest =>
      have doubled : ∀ symbol ∈ longSymbols, symbol.toList.head? = some '=' →
          symbol.toList = ['=', '='] := by decide
      refine Bool.eq_false_iff.mpr fun long => single ?_
      have same := doubled _ (List.contains_iff_mem.mp long)
      rw [String.toList_ofList] at same
      obtain ⟨-, rfl, -⟩ := List.cons.inj (same rfl) |>.imp_right List.cons.inj
      rfl
  rw [insideToken]
  dsimp only
  rw [pair, if_neg Bool.false_ne_true, if_pos (by decide)]
  rfl

theorem literalBody?_append {delimiter : Char} {content : List Char} (plain : '\\' ∉ content)
    (inside : delimiter ∉ content) (other : delimiter ≠ '\\') (rest : List Char) :
    literalBody? delimiter (content ++ delimiter :: rest) = some (content, rest) := by
  induction content with
  | nil =>
    rw [List.nil_append, literalBody?, if_pos rfl]
    exact fun _ _ escape => absurd escape other
  | cons c content ih =>
    rw [List.mem_cons, not_or] at plain inside
    rw [List.cons_append, literalBody?, if_neg (Ne.symm inside.1), ih plain.2 inside.2]
    · rfl
    · exact fun _ _ escape => absurd escape.symm plain.1

theorem unescape?_of_not_mem {content : List Char} (plain : '\\' ∉ content) {fuel : Nat}
    (enough : content.length < fuel) : unescape? fuel content = some content := by
  induction content generalizing fuel with
  | nil =>
    obtain ⟨fuel, rfl⟩ : ∃ less, fuel = less + 1 := ⟨fuel - 1, by omega⟩
    rfl
  | cons c content ih =>
    obtain ⟨fuel, rfl⟩ : ∃ less, fuel = less + 1 := ⟨fuel - 1, by omega⟩
    rw [List.mem_cons, not_or] at plain
    rw [List.length_cons] at enough
    rw [unescape?, ih plain.2 (by omega)]
    · rfl
    all_goals intros; exact plain.1 (by assumption : c = _).symm

/-- A text in quotes is one token. -/
theorem insideToken_literal (literal : Literal) (plain : '\\' ∉ literal.content)
    (rest : List Char) :
    insideToken (literal.chars ++ rest) =
      .ok (.text literal.value, literal.content.length + 1 + 1) := by
  have inside : literal.quote ∉ literal.content :=
    fun member => (literal.inside _ member).1 rfl
  have other : literal.quote ≠ '\\' ∧ literal.quote ∉ ['/', '*', '=', '!', '>', '<'] ∧
      shortSymbols.contains literal.quote = false :=
    literal.of_quotes (p := fun c => c ≠ '\\' ∧ c ∉ ['/', '*', '=', '!', '>', '<'] ∧
      shortSymbols.contains c = false) (by decide) (by decide)
  have body : literalBody? literal.quote (literal.content ++ literal.quote :: rest) =
      some (literal.content, rest) := literalBody?_append plain inside other.1 rest
  have spelled : literal.chars ++ rest =
      literal.quote :: (literal.content ++ literal.quote :: rest) := by
    simp [Literal.chars]
  rw [spelled, insideToken]
  dsimp only
  rw [not_long_of_head other.2.1, if_neg Bool.false_ne_true, other.2.2, if_neg Bool.false_ne_true,
    if_pos literal.quotes, literal?, List.drop_one, List.tail_cons, body]
  dsimp only
  rw [unescape?_of_not_mem plain (Nat.lt_succ_self _)]
  rfl

theorem ne_of_startsName {c d : Char} (starts : startsName c = true)
    (other : startsName d = false) : c ≠ d := by
  rintro rfl
  rw [starts] at other
  cases other

/-- A name that no further character of a name follows is one token. -/
theorem insideToken_name {c : Char} {name : List Char} (starts : startsName c = true)
    (continues : ∀ d ∈ c :: name, continuesName d = true)
    (boundary : ∀ d, rest.head? = some d → continuesName d = false) :
    insideToken (c :: name ++ rest) =
      .ok (.ident (String.ofList (c :: name)), name.length + 1) := by
  have taken : (c :: name ++ rest).takeWhile continuesName = c :: name :=
    takeWhile_append_of_head continues boundary
  have letter : c ∉ ['/', '*', '=', '!', '>', '<'] ∧ shortSymbols.contains c = false ∧
      ¬ (c = '\'' ∨ c = '"') ∧ c.isDigit = false := by
    have others : ∀ d ∈ ['/', '*', '=', '!', '>', '<'] ++ shortSymbols ++ ['\'', '"'],
        startsName d = false := List.all_iff_forall_prop.mp (by decide)
    have digits : ∀ n ∈ List.range' 48 10, startsName (Char.ofNat n) = false := by decide
    have letter : ∀ d, startsName d = false → c ≠ d := fun d => ne_of_startsName starts
    refine ⟨fun listed => ?_, Bool.eq_false_iff.mpr fun listed => ?_, ?_,
      Bool.eq_false_iff.mpr fun digit => ?_⟩
    · exact letter c (others c (List.mem_append_left _ (List.mem_append_left _ listed))) rfl
    · exact letter c (others c (List.mem_append_left _ (List.mem_append_right _
        (List.contains_iff_mem.mp listed)))) rfl
    · rintro (rfl | rfl)
      · exact letter _ (others _ (by simp)) rfl
      · exact letter _ (others _ (by simp)) rfl
    · have code : c.toNat ∈ List.range' 48 10 := by
        simp only [Char.isDigit, Bool.and_eq_true, decide_eq_true_eq, ge_iff_le,
          UInt32.le_iff_toNat_le] at digit
        rw [List.mem_range'_1]
        exact ⟨digit.1, by have := digit.2; change c.toNat ≤ 57 at this; omega⟩
      have same := digits _ code
      rw [Char.ofNat_toNat] at same
      exact letter c same rfl
  rw [List.cons_append, insideToken]
  dsimp only
  rw [not_long_of_head letter.1, if_neg Bool.false_ne_true, letter.2.1, if_neg Bool.false_ne_true,
    if_neg letter.2.2.1, letter.2.2.2, if_neg Bool.false_ne_true, if_pos starts,
    ← List.cons_append, taken]
  rfl

/-! ## Calls -/

section

variable (tag : closing ∈ tagClosings)

include tag

theorem Passes.bracket {c : Char} (listed : c ∈ ['(', ')', ',']) (brackets : Int)
    (rest : List Char) :
    Passes closing brackets (c :: rest) [.symbol (String.singleton c)]
      (brackets + bracketChange (.symbol (String.singleton c))) rest := by
  have plain : ∀ c ∈ ['(', ')', ','], isGap c = false ∧ c ∉ ['-', '+', '\x7d', '%'] :=
    List.all_iff_forall_prop.mp (by decide)
  obtain ⟨visible, unsigned⟩ := plain c listed
  exact .token visible (fun _ => tagEnd?_of_head tag unsigned rest)
    (insideToken_bracket listed rest) .done

theorem Passes.name {name : List Char} (starts : name.head?.all startsName = true)
    (nonempty : name ≠ []) (continues : ∀ c ∈ name, continuesName c = true) (brackets : Int)
    (boundary : ∀ d, rest.head? = some d → continuesName d = false) :
    Passes closing brackets (name ++ rest) [.ident (String.ofList name)] brackets
      rest := by
  obtain ⟨c, name, rfl⟩ := List.exists_cons_of_ne_nil nonempty
  rw [List.head?_cons, Option.all_some] at starts
  have letter : ∀ d, startsName d = false → c ≠ d := fun d => ne_of_startsName starts
  have read := insideToken_name starts continues boundary
  have after : (name ++ rest).drop name.length = rest := List.drop_left
  have none : bracketChange (.ident (String.ofList (c :: name))) = 0 := rfl
  rw [List.cons_append] at read ⊢
  refine .token ?_ (fun _ => tagEnd?_of_head tag ?_ _) read ?_
  · refine Bool.eq_false_iff.mpr fun gap => ?_
    simp only [isGap, Bool.or_eq_true, beq_iff_eq] at gap
    rcases gap with (((rfl | rfl) | rfl) | rfl) | rfl <;> exact letter _ (by decide) rfl
  · simp only [List.mem_cons, List.not_mem_nil, or_false]
    rintro (rfl | rfl | rfl | rfl) <;> exact letter _ (by decide) rfl
  · rw [after, none, Int.add_zero]
    exact .done

theorem Passes.item {item : Item} (readable : item.Readable) (brackets : Int)
    (rest : List Char) :
    Passes closing brackets (item.chars ++ rest) [.text item.literal.value] brackets
      rest := by
  have visible : isGap item.literal.quote = false :=
    item.literal.of_quotes (p := (isGap · = false)) (by decide) (by decide)
  have unsigned : item.literal.quote ∉ ['-', '+', '\x7d', '%'] :=
    item.literal.of_quotes (p := (· ∉ ['-', '+', '\x7d', '%'])) (by decide) (by decide)
  have quoted : Passes closing brackets
      (item.literal.chars ++ (item.after.chars ++ rest)) [.text item.literal.value] brackets
      (item.after.chars ++ rest) := by
    have read := insideToken_literal item.literal readable.plain (item.after.chars ++ rest)
    have after : (item.literal.content ++ [item.literal.quote] ++
        (item.after.chars ++ rest)).drop (item.literal.content.length + 1) =
          item.after.chars ++ rest := List.drop_left' (by simp)
    have none : bracketChange (.text item.literal.value) = 0 := rfl
    have done : Passes closing (brackets + bracketChange (.text item.literal.value))
        ((item.literal.content ++ [item.literal.quote] ++
          (item.after.chars ++ rest)).drop (item.literal.content.length + 1)) [] brackets
        (item.after.chars ++ rest) := by
      rw [none, Int.add_zero, after]
      exact .done
    exact .token visible (fun _ => tagEnd?_of_head tag unsigned _) read done
  have spelled : item.chars ++ rest =
      item.before.chars ++ (item.literal.chars ++ (item.after.chars ++ rest)) := by
    simp [Item.chars]
  rw [spelled]
  exact (Passes.blanks readable.before _ _).trans
    (quoted.trans (Passes.blanks readable.after _ _))

omit tag in
theorem continuesName_of_isGap {c : Char} (gap : isGap c = true) : continuesName c = false := by
  simp only [isGap, Bool.or_eq_true, beq_iff_eq] at gap
  rcases gap with (((rfl | rfl) | rfl) | rfl) | rfl <;> decide

theorem Passes.keyword {keyword : Keyword} (readable : keyword.Readable) (brackets : Int)
    (single : rest.head? ≠ some '=') :
    Passes closing brackets (keyword.chars ++ rest)
      [.ident keyword.text, .symbol "="] brackets rest := by
  have boundary : ∀ d, (keyword.after.chars ++ '=' :: rest).head? = some d →
      continuesName d = false :=
    fun d here =>
      Gap.of_head (fun c member => continuesName_of_isGap (readable.after c member)) (by decide)
        here
  have named :=
    Passes.name tag readable.starts keyword.nonempty readable.continues brackets boundary
  have sign : Passes closing brackets ('=' :: rest) [.symbol "="] brackets rest := by
    have none : bracketChange (.symbol "=") = 0 := by decide
    refine .token (by decide) (fun _ => tagEnd?_of_head tag (by decide) _)
      (insideToken_equals rest single) ?_
    rw [none, Int.add_zero]
    exact .done
  have spelled : keyword.chars ++ rest =
      keyword.before.chars ++ (keyword.name ++ (keyword.after.chars ++ '=' :: rest)) := by
    simp [Keyword.chars]
  rw [spelled]
  exact (Passes.blanks readable.before _ _).trans
    (named.trans ((Passes.blanks readable.after _ _).trans sign))

theorem Passes.argument {argument : Argument} (readable : ReadableArgument argument)
    (brackets : Int) (rest : List Char) :
    Passes closing brackets (argument.chars ++ rest) argument.tokens brackets rest := by
  obtain ⟨keyword, item⟩ := argument
  cases keyword with
  | none => exact Passes.item tag readable.item brackets rest
  | some keyword =>
    have single : (item.chars ++ rest).head? ≠ some '=' := by
      rw [Item.chars, Literal.chars, List.append_assoc, List.append_assoc, List.cons_append]
      have blanks : ∀ d ∈ item.before.chars, d ≠ '=' := by
        rintro d member rfl
        exact absurd (readable.item.before _ member) (by decide)
      have quote := item.literal.of_quotes (p := (· ≠ '=')) (by decide) (by decide)
      exact fun here => Gap.of_head blanks quote here rfl
    have spelled : Argument.chars (some keyword, item) ++ rest =
        keyword.chars ++ (item.chars ++ rest) := by
      simp [Argument.chars]
    rw [spelled]
    exact (Passes.keyword tag (readable.keyword keyword rfl) brackets single).trans
      (Passes.item tag readable.item brackets rest)

theorem Passes.comma (brackets : Int) (rest : List Char) :
    Passes closing brackets (',' :: rest) [.symbol ","] brackets rest := by
  have comma := Passes.bracket tag (c := ',') (by decide) brackets rest
  have none : bracketChange (.symbol (String.singleton ',')) = 0 := by decide
  rwa [none, Int.add_zero] at comma

theorem Passes.arguments {arguments : List Argument}
    (readable : ∀ argument ∈ arguments, ReadableArgument argument) (brackets : Int)
    (rest : List Char) :
    Passes closing brackets (argumentChars arguments ++ rest)
      (argumentTokens arguments) brackets rest := by
  have further : ∀ arguments : List Argument,
      (∀ argument ∈ arguments, ReadableArgument argument) →
        Passes closing brackets
          ((arguments.flatMap fun argument => ',' :: argument.chars) ++ rest)
          (arguments.flatMap fun argument => .symbol "," :: argument.tokens) brackets rest := by
    intro arguments
    induction arguments with
    | nil => exact fun _ => .done
    | cons argument arguments ih =>
      intro readable
      obtain ⟨here, later⟩ := List.forall_mem_cons.mp readable
      rw [List.flatMap_cons, List.flatMap_cons, List.append_assoc, List.cons_append]
      exact (Passes.comma tag brackets _).trans ((Passes.argument tag here brackets _).trans
        (ih later))
  cases arguments with
  | nil => exact .done
  | cons first arguments =>
    obtain ⟨here, later⟩ := List.forall_mem_cons.mp readable
    rw [argumentChars, argumentTokens, List.append_assoc]
    exact (Passes.argument tag here brackets _).trans (further arguments later)

theorem Passes.lastComma {comma : Option Gap} (readable : ∀ gap, comma = some gap → gap.Readable)
    (brackets : Int) (rest : List Char) :
    Passes closing brackets (SqlPipeline.lastComma comma ++ rest) (lastCommaTokens comma.isSome)
      brackets rest := by
  cases comma with
  | none => exact .done
  | some gap =>
    exact (Passes.comma tag brackets _).trans (Passes.blanks (readable gap rfl) brackets rest)

/-- A call is passed with its tokens, and all brackets are closed after it. -/
theorem Passes.call {block : PlainBlock} (readable : block.Readable) (rest : List Char) :
    Passes closing 0 (block.callChars ++ rest) (block.call.tokens block.comma.isSome) 0 rest := by
  have function : block.call.function.toList.head?.all startsName = true ∧
      block.call.function.toList ≠ [] ∧
        ∀ c ∈ block.call.function.toList, continuesName c = true := by
    have names : ∀ name ∈ ["ref", "source", "config"], name.toList.head?.all startsName = true ∧
        name.toList ≠ [] ∧ name.toList.all continuesName = true := by decide
    obtain ⟨starts, nonempty, continues⟩ := names _ block.call.function_mem
    exact ⟨starts, nonempty, List.all_eq_true.mp continues⟩
  let last := SqlPipeline.lastComma block.comma ++ (')' :: rest)
  let inside := argumentChars block.call.arguments ++ last
  have boundary : ∀ d, (block.spacing.chars ++ '(' :: inside).head? = some d →
      continuesName d = false :=
    fun d here =>
      Gap.of_head (fun c member => continuesName_of_isGap (readable.spacing c member)) (by decide)
        here
  have named := Passes.name tag function.1 function.2.1 function.2.2 0 boundary
  rw [String.ofList_toList] at named
  have opened := Passes.bracket tag (c := '(') (by decide) 0 inside
  have closed := Passes.bracket tag (c := ')') (by decide) 1 rest
  have first : (0 : Int) + bracketChange (.symbol (String.singleton '(')) = 1 := by decide
  have second : (1 : Int) + bracketChange (.symbol (String.singleton ')')) = 0 := by decide
  rw [first] at opened
  rw [second] at closed
  have spelled : block.callChars ++ rest =
      block.call.function.toList ++ (block.spacing.chars ++ '(' :: inside) := by
    simp [PlainBlock.callChars, PlainCall.chars, inside, last]
  have tokens : block.call.tokens block.comma.isSome = [.ident block.call.function] ++ ([] ++
      ([.symbol (String.singleton '(')] ++ (argumentTokens block.call.arguments ++
        (lastCommaTokens block.comma.isSome ++ [.symbol (String.singleton ')')])))) := by
    rw [PlainCall.tokens, List.append_assoc]
    rfl
  have comma := Passes.lastComma tag (fun gap same => (readable.comma gap same).1) 1 (')' :: rest)
  rw [spelled, tokens]
  exact named.trans ((Passes.blanks readable.spacing 0 _).trans
    (opened.trans ((Passes.arguments tag readable.arguments 1 last).trans (comma.trans closed))))

end

/-! ## Pages -/

theorem splitAtTag_append {text : List Char} (braceless : '\x7b' ∉ text) {kind : Char}
    (tag : kind = '\x7b' ∨ kind = '%' ∨ kind = '#') (rest : List Char) :
    splitAtTag (text ++ '\x7b' :: kind :: rest) = (text, some (kind, rest)) := by
  induction text with
  | nil => rw [List.nil_append, splitAtTag, if_pos tag]
  | cons c text ih =>
    rw [List.mem_cons, not_or] at braceless
    rw [List.cons_append, splitAtTag, ih braceless.2]
    · exact fun brace => absurd brace.symm braceless.1
    · exact fun _ _ brace => absurd brace.symm braceless.1

theorem splitAtTag_of_not_mem {text : List Char} (braceless : '\x7b' ∉ text) :
    splitAtTag text = (text, none) := by
  induction text with
  | nil => rfl
  | cons c text ih =>
    rw [List.mem_cons, not_or] at braceless
    rw [splitAtTag, ih braceless.2]
    · exact fun brace => absurd brace.symm braceless.1
    · exact fun _ _ brace => absurd brace.symm braceless.1

/-- The tokens of a page: those of its calls and assignments, each in a tag, with plain text around
the tags. -/
inductive Lexed : List PlainCall → List LocatedToken → Prop
  | nil : Lexed [] []
  | data {calls : List PlainCall} {located : List LocatedToken} (text : String) (line : Nat)
      (rest : Lexed calls located) : Lexed calls ((.data text, line) :: located)
  | call {calls : List PlainCall} {located inside : List LocatedToken} {call : PlainCall}
      {comma : Bool} (start stop : Nat) (given : comma = true → call.arguments ≠ [])
      (spelled : inside.map Prod.fst = call.tokens comma) (rest : Lexed calls located) :
      Lexed (call :: calls)
        ((.variableStart, start) :: (inside ++ (.variableEnd, stop) :: located))
  | assignment {calls : List PlainCall} {located inside : List LocatedToken}
      {assignment : PlainAssignment} (start stop : Nat) (readable : assignment.Readable)
      (spelled : inside.map Prod.fst = assignment.tokens) (rest : Lexed calls located) :
      Lexed calls ((.blockStart, start) :: (inside ++ (.blockEnd, stop) :: located))

/-- The token of the end of a tag. -/
def endToken (closing : List Char) : Token :=
  if closing == ['%', '\x7d'] then .blockEnd else .variableEnd

/-- The sign before the end of a tag belongs to it. -/
theorem exists_readTokens_tagEnd (tag : closing ∈ tagClosings) (mark : Mark) (rest : List Char)
    (fuel line : Nat) :
    ∃ trim next, readTokens (fuel + 1) (.inside closing 0)
        ⟨mark.chars ++ (closing ++ rest), line⟩ =
      (endToken closing, line) :: readTokens fuel (.plain trim) ⟨rest, next⟩ := by
  rcases List.mem_pair.mp tag with rfl | rfl <;> cases mark <;> exact ⟨_, _, rfl⟩

/-- The sign after the opening of a tag is passed over. -/
theorem exists_advance_mark (mark : Mark) {tail : List Char}
    (unsigned : ∀ c, tail.head? = some c → c ≠ '-' ∧ c ≠ '+') (line : Nat) :
    ∃ next, Cursor.advance ⟨mark.chars ++ tail, line⟩ (controlOf (mark.chars ++ tail).head?).2 =
      ⟨tail, next⟩ := by
  cases mark with
  | none =>
    have control : controlOf tail.head? = (.keep, 0) := by
      rw [controlOf]
      · exact fun sign => (unsigned '-' sign).1 rfl
      · exact fun sign => (unsigned '+' sign).2 rfl
    refine ⟨line, ?_⟩
    rw [Mark.chars, List.nil_append, control]
    rfl
  | minus => exact ⟨_, rfl⟩
  | plus => exact ⟨_, rfl⟩

/-- No sign comes first where blanks do, or a character that is none. -/
theorem unsigned_of_gap {gap : Gap} (readable : gap.Readable) {c : Char}
    (letter : c ≠ '-' ∧ c ≠ '+') (rest : List Char) :
    ∀ d, (gap.chars ++ c :: rest).head? = some d → d ≠ '-' ∧ d ≠ '+' := by
  have blanks : ∀ d ∈ gap.chars, d ≠ '-' ∧ d ≠ '+' := by
    intro d member
    constructor
    · rintro rfl
      exact absurd (readable _ member) (by decide)
    · rintro rfl
      exact absurd (readable _ member) (by decide)
  exact fun d => Gap.of_head blanks letter

/-- A tag gives the tokens of what it holds, whatever signs it has. -/
theorem exists_readTokens_inside (tag : closing ∈ tagClosings) {first last : Mark}
    {tail : List Char} (unsigned : ∀ c, tail.head? = some c → c ≠ '-' ∧ c ≠ '+')
    (passes : Passes closing 0 tail tokens 0 (last.chars ++ (closing ++ rest))) (fuel line : Nat)
    (enough : (first.chars ++ tail).length < fuel) :
    ∃ located fuel' line' stop trim, located.map Prod.fst = tokens ∧ rest.length < fuel' ∧
      readTokens fuel (.inside closing 0) (Cursor.advance ⟨first.chars ++ tail, line⟩
          (controlOf (first.chars ++ tail).head?).2) =
        located ++ (endToken closing, stop) :: readTokens fuel' (.plain trim) ⟨rest, line'⟩ := by
  obtain ⟨next, start⟩ := exists_advance_mark first unsigned line
  rw [List.length_append] at enough
  obtain ⟨located, fuel', middle, tokens, shorter, reads⟩ :=
    passes.readTokens fuel next (by omega)
  rw [List.length_append, List.length_append] at shorter
  obtain ⟨fuel', rfl⟩ : ∃ less, fuel' = less + 1 := ⟨fuel' - 1, by omega⟩
  have wide : 0 < closing.length := by
    rcases List.mem_pair.mp tag with rfl | rfl <;> decide
  obtain ⟨trim, line', stops⟩ := exists_readTokens_tagEnd tag last rest fuel' middle
  exact ⟨located, fuel', line', middle, trim, tokens, by omega, by rw [start, reads, stops]⟩

/-- A block gives the tokens of its call. -/
theorem exists_readTokens_block {block : PlainBlock} (readable : block.Readable)
    (rest : List Char) (fuel line : Nat)
    (enough : (block.content ++ (ModelCalls.closing ++ rest)).length < fuel) :
    ∃ located fuel' line' stop trim,
      located.map Prod.fst = block.call.tokens block.comma.isSome ∧ rest.length < fuel' ∧
        let inside := block.content ++ (ModelCalls.closing ++ rest)
        readTokens fuel (.inside ModelCalls.closing 0)
            (Cursor.advance ⟨inside, line⟩ (controlOf inside.head?).2) =
          located ++ (.variableEnd, stop) :: readTokens fuel' (.plain trim) ⟨rest, line'⟩ := by
  have tag : ModelCalls.closing ∈ tagClosings := List.mem_cons_self
  let last := block.closing.chars ++ (ModelCalls.closing ++ rest)
  have spelled : block.content ++ (ModelCalls.closing ++ rest) =
      block.opening.chars ++
        (block.before.chars ++ (block.callChars ++ (block.after.chars ++ last))) := by
    simp [PlainBlock.content, last]
  have passes := (Passes.blanks readable.before 0 _).trans
    ((Passes.call tag readable _).trans (Passes.blanks readable.after 0 last))
  rw [List.nil_append, List.append_nil] at passes
  obtain ⟨c, -, name, -, begins, initial⟩ := block.exists_initial
  have letters : ∀ c ∈ ['r', 's', 'c'], c ≠ '-' ∧ c ≠ '+' :=
    List.all_iff_forall_prop.mp (by decide)
  have unsigned := unsigned_of_gap readable.before (letters c initial)
    (name ++ (block.after.chars ++ last))
  rw [← List.cons_append, ← begins] at unsigned
  rw [spelled] at enough ⊢
  exact exists_readTokens_inside tag unsigned passes fuel line enough

/-- An assignment is passed with its tokens. -/
theorem Passes.assignment {assignment : PlainAssignment} (readable : assignment.Readable)
    (rest : List Char) :
    Passes ['%', '\x7d'] 0 (assignment.before.chars ++ ("set".toList ++
      (Argument.chars (some assignment.name, assignment.item) ++ rest))) assignment.tokens 0
        rest := by
  have tag : ['%', '\x7d'] ∈ tagClosings := by decide
  have argument : ReadableArgument (some assignment.name, assignment.item) := by
    refine ⟨fun keyword same => ?_, readable.item⟩
    cases same
    exact readable.name
  obtain ⟨c, blanks, gap⟩ := List.exists_cons_of_ne_nil assignment.parted
  have boundary : ∀ d, (Argument.chars (some assignment.name, assignment.item) ++ rest).head? =
      some d → continuesName d = false := by
    intro d here
    rw [Argument.chars, Option.elim_some, Keyword.chars, gap] at here
    cases here
    exact continuesName_of_isGap (readable.name.before c (gap ▸ List.mem_cons_self))
  have continues : ∀ c ∈ "set".toList, continuesName c = true :=
    List.all_iff_forall_prop.mp (by decide)
  have word := Passes.name tag (by decide) (by decide) continues 0 boundary
  exact (Passes.blanks readable.before 0 _).trans (word.trans (Passes.argument tag argument 0 rest))

/-- A tag with an assignment gives the tokens of the assignment, and is none of a raw section. -/
theorem exists_readTokens_assignment {assignment : PlainAssignment}
    (readable : assignment.Readable) (rest : List Char) (fuel line : Nat)
    (enough : (assignment.content ++ (['%', '\x7d'] ++ rest)).length < fuel) :
    let inside := assignment.content ++ (['%', '\x7d'] ++ rest)
    bareTag? "raw".toList (inside.drop (controlOf inside.head?).2) = none ∧
      ∃ located fuel' line' stop trim,
        located.map Prod.fst = assignment.tokens ∧ rest.length < fuel' ∧
          readTokens fuel (.inside ['%', '\x7d'] 0)
              (Cursor.advance ⟨inside, line⟩ (controlOf inside.head?).2) =
            located ++ (.blockEnd, stop) :: readTokens fuel' (.plain trim) ⟨rest, line'⟩ := by
  have tag : ['%', '\x7d'] ∈ tagClosings := by decide
  let last := assignment.closing.chars ++ (['%', '\x7d'] ++ rest)
  let tail := assignment.before.chars ++ ("set".toList ++
    (Argument.chars (some assignment.name, assignment.item) ++ last))
  have spelled : assignment.content ++ (['%', '\x7d'] ++ rest) =
      assignment.opening.chars ++ tail := by
    simp [PlainAssignment.content, tail, last]
  have word : "set".toList = 's' :: "et".toList := by decide
  have unsigned : ∀ c, tail.head? = some c → c ≠ '-' ∧ c ≠ '+' := by
    have first := unsigned_of_gap readable.before (by decide : 's' ≠ '-' ∧ 's' ≠ '+')
      ("et".toList ++ (Argument.chars (some assignment.name, assignment.item) ++ last))
    rwa [← List.cons_append, ← word] at first
  intro inside
  have whole : inside = assignment.opening.chars ++ tail := spelled
  clear_value inside
  subst whole
  refine ⟨?_, exists_readTokens_inside tag unsigned (Passes.assignment readable last) fuel line
    (spelled ▸ enough)⟩
  obtain ⟨next, start⟩ := exists_advance_mark assignment.opening unsigned line
  have dropped : (assignment.opening.chars ++ tail).drop
      (controlOf (assignment.opening.chars ++ tail).head?).2 = tail := congrArg Cursor.rest start
  have letter : tail.dropWhile isGap = "set".toList ++
      (Argument.chars (some assignment.name, assignment.item) ++ last) := by
    refine dropWhile_append_of_head readable.before fun c here => ?_
    rw [word, List.cons_append, List.head?_cons, Option.some.injEq] at here
    rw [← here]
    decide
  have other : after? "raw".toList ("set".toList ++
      (Argument.chars (some assignment.name, assignment.item) ++ last)) = none :=
    after?_cons_of_ne (by decide : 'r' ≠ 's') _ _
  rw [dropped, bareTag?, letter, other]
  rfl

/-- A comment gives no tokens. -/
theorem exists_advance_comment (comment : PlainComment) (rest : List Char) (line : Nat) :
    ∃ text next, Cursor.advance ⟨comment.content ++ ('#' :: '\x7d' :: rest), line⟩
        (controlOf (comment.content ++ ('#' :: '\x7d' :: rest)).head?).2 =
          ⟨text ++ ('#' :: '\x7d' :: rest), next⟩ ∧ '#' ∉ text := by
  have absent : '#' ∉ comment.content := fun member => (comment.inside _ member).1 rfl
  cases content : comment.content with
  | nil => exact ⟨[], line, rfl, List.not_mem_nil⟩
  | cons c text =>
    rw [content, List.mem_cons, not_or] at absent
    by_cases sign : c = '-' ∨ c = '+'
    · rcases sign with rfl | rfl <;> exact ⟨text, _, rfl, absent.2⟩
    · rw [not_or] at sign
      have control : controlOf (some c) = (.keep, 0) := by
        rw [controlOf]
        · simpa using sign.1
        · simpa using sign.2
      refine ⟨c :: text, line, ?_, by rwa [List.mem_cons, not_or]⟩
      rw [List.cons_append, List.head?_cons, control]
      rfl

/-- Blanks that are removed before a tag belong to the text before it. -/
theorem exists_readTokens_trim (trim : Bool) (text : List Char) {rest : List Char} (fuel line : Nat)
    (stops : ∀ c, rest.head? = some c → isBlank c = false) :
    ∃ kept next, (∀ c ∈ kept, c ∈ text) ∧
      readTokens (fuel + 1) (.plain trim) ⟨text ++ rest, line⟩ =
        readTokens (fuel + 1) (.plain false) ⟨kept ++ rest, next⟩ := by
  cases trim with
  | false => exact ⟨text, line, fun _ member => member, rfl⟩
  | true =>
    have dropped := Cursor.rest_skipWhile ⟨text ++ rest, line⟩ isBlank
    rw [dropWhile_append_of_stop stops] at dropped
    cases skipped : Cursor.skipWhile ⟨text ++ rest, line⟩ isBlank with
    | mk left next =>
      rw [skipped] at dropped
      refine ⟨text.dropWhile isBlank, next,
        fun c member => (List.dropWhile_suffix _).subset member, ?_⟩
      have start : Cursor.mk left next = ⟨text.dropWhile isBlank ++ rest, next⟩ :=
        congrArg (Cursor.mk · next) dropped
      rw [readTokens, readTokens, if_pos rfl, skipped, if_neg Bool.false_ne_true, start]

/-- At most one token of plain text. -/
def AtMostData (located : List LocatedToken) : Prop :=
  located = [] ∨ ∃ text line, located = [(.data text, line)]

theorem Lexed.after_data {calls : List PlainCall} {data located : List LocatedToken}
    (plain : AtMostData data) (lexed : Lexed calls located) : Lexed calls (data ++ located) := by
  rcases plain with rfl | ⟨text, line, rfl⟩
  · exact lexed
  · exact .data text line lexed

theorem atMostData_kept (kept : List Char) (line : Nat) :
    AtMostData (if kept.isEmpty then [] else [(.data (String.ofList kept), line)]) := by
  split
  · exact .inl rfl
  · exact .inr ⟨_, _, rfl⟩

/-- Plain text without a tag after it. -/
theorem exists_plainText_last {text : List Char} (braceless : '\x7b' ∉ text) (line : Nat) :
    ∃ data, AtMostData data ∧ plainText ⟨text, line⟩ = (data, none) := by
  rw [plainText, splitAtTag_of_not_mem braceless]
  exact ⟨_, atMostData_kept _ line, rfl⟩

/-- Plain text with a tag after it. -/
theorem exists_plainText_tag {text : List Char} (braceless : '\x7b' ∉ text) {kind : Char}
    (tag : kind = '\x7b' ∨ kind = '%' ∨ kind = '#') (rest : List Char) (line : Nat) :
    ∃ data next, AtMostData data ∧
      plainText ⟨text ++ '\x7b' :: kind :: rest, line⟩ = (data, some (kind, ⟨rest, next⟩)) := by
  have after : (text ++ '\x7b' :: kind :: rest).drop (text.length + 2) = rest := by
    have split : text ++ '\x7b' :: kind :: rest = (text ++ ['\x7b', kind]) ++ rest := by simp
    rw [split]
    exact List.drop_left' (by simp)
  rw [plainText, splitAtTag_append braceless tag]
  simp only [Cursor.advance, after, Option.map_some]
  exact ⟨_, _, atMostData_kept _ line, rfl⟩

section

variable {calls : List PlainCall} {fuel : Nat} (braceless : '\x7b' ∉ text)
  (later : ∀ trim fuel line, rest.length < fuel →
    Lexed calls (readTokens fuel (.plain trim) ⟨rest, line⟩))

include braceless later

/-- A block is a call before those of the rest. -/
theorem lexed_block {block : PlainBlock} (readable : block.Readable)
    (enough : (block.chars ++ rest).length < fuel + 1) (line : Nat) :
    Lexed (block.call :: calls)
      (readTokens (fuel + 1) (.plain false) ⟨text ++ (block.chars ++ rest), line⟩) := by
  let inside := block.content ++ (ModelCalls.closing ++ rest)
  have spelled : block.chars ++ rest = '\x7b' :: '\x7b' :: inside := by
    simp [PlainBlock.chars, ModelCalls.opening, inside]
  obtain ⟨data, after, plain, tag⟩ := exists_plainText_tag braceless (.inl rfl) inside line
  rw [spelled, List.length_cons, List.length_cons] at enough
  obtain ⟨located, fuel', line', stop, trim, tokens, shorter, reads⟩ :=
    exists_readTokens_block readable rest fuel after (by omega : inside.length < fuel)
  rw [spelled, readTokens, if_neg Bool.false_ne_true]
  dsimp only
  rw [tag]
  change Lexed _ (data ++ (.variableStart, after) ::
    readTokens fuel (.inside ModelCalls.closing 0)
      (Cursor.advance ⟨inside, after⟩ (controlOf inside.head?).2))
  rw [reads]
  have given : block.comma.isSome = true → block.call.arguments ≠ [] := by
    intro comma
    obtain ⟨gap, same⟩ := Option.isSome_iff_exists.mp comma
    exact (readable.comma gap same).2
  exact (Lexed.call after stop given tokens (later trim fuel' line' shorter)).after_data plain

/-- A comment leaves the calls of the rest. -/
theorem lexed_comment (comment : PlainComment) (enough : (comment.chars ++ rest).length < fuel + 1)
    (line : Nat) :
    Lexed calls (readTokens (fuel + 1) (.plain false) ⟨text ++ (comment.chars ++ rest), line⟩) := by
  have spelled : comment.chars ++ rest =
      '\x7b' :: '#' :: (comment.content ++ ('#' :: '\x7d' :: rest)) := by
    simp [PlainComment.chars]
  obtain ⟨data, after, plain, tag⟩ := exists_plainText_tag braceless (.inr (.inr rfl))
    (comment.content ++ ('#' :: '\x7d' :: rest)) line
  have shorter : rest.length < fuel := by
    rw [spelled] at enough
    simp only [List.length_cons, List.length_append] at enough
    omega
  obtain ⟨shown, next, start, absent⟩ := exists_advance_comment comment rest after
  have closed : splitFirst? ['#', '\x7d'] (shown ++ ('#' :: '\x7d' :: rest)) =
      some (shown, rest) := by
    have found := splitFirst?_append ['#', '\x7d'] rest
    rw [splitFirst?_append_of_not_mem absent]
    simpa using found
  have passed : (shown ++ ('#' :: '\x7d' :: rest)).drop (shown.length + 2) = rest := by
    have split : shown ++ ('#' :: '\x7d' :: rest) = (shown ++ ['#', '\x7d']) ++ rest := by simp
    rw [split]
    exact List.drop_left' (by simp)
  rw [spelled, readTokens, if_neg Bool.false_ne_true]
  dsimp only
  rw [tag]
  refine Lexed.after_data plain ?_
  simp only [start, closed]
  dsimp only [Cursor.advance]
  rw [passed]
  exact later _ fuel _ shorter

/-- An assignment comes with the calls of the rest. -/
theorem lexed_assignment {assignment : PlainAssignment} (readable : assignment.Readable)
    (enough : (assignment.chars ++ rest).length < fuel + 1) (line : Nat) :
    Lexed calls
      (readTokens (fuel + 1) (.plain false) ⟨text ++ (assignment.chars ++ rest), line⟩) := by
  obtain ⟨inside, whole⟩ : ∃ inside, inside = assignment.content ++ (['%', '\x7d'] ++ rest) :=
    ⟨_, rfl⟩
  have spelled : assignment.chars ++ rest = '\x7b' :: '%' :: inside := by
    simp [PlainAssignment.chars, whole]
  obtain ⟨data, after, plain, tag⟩ :=
    exists_plainText_tag braceless (.inr (.inl rfl)) inside line
  rw [spelled, List.length_cons, List.length_cons] at enough
  obtain ⟨raw, located, fuel', line', stop, trim, tokens, shorter, reads⟩ :=
    exists_readTokens_assignment readable rest fuel after (by rw [← whole]; omega)
  rw [← whole] at raw reads
  rw [spelled, readTokens, if_neg Bool.false_ne_true]
  dsimp only
  rw [tag]
  refine Lexed.after_data plain ?_
  simp only [raw]
  rw [reads]
  exact .assignment after stop readable tokens (later trim fuel' line' shorter)

end

theorem PlainTag.exists_chars (tag : PlainTag) : ∃ inside, tag.chars = '\x7b' :: inside := by
  cases tag <;> exact ⟨_, rfl⟩

theorem lexed_readTokens (parts : List (PlainText × PlainTag)) (last : PlainText)
    (readable : ∀ part ∈ parts, part.2.Readable) (trim : Bool) (fuel line : Nat)
    (enough : (Page.chars ⟨parts, last⟩).length < fuel) :
    Lexed ((Page.blocks ⟨parts, last⟩).map (·.call))
      (readTokens fuel (.plain trim) ⟨Page.chars ⟨parts, last⟩, line⟩) := by
  induction parts generalizing trim fuel line with
  | nil =>
    obtain ⟨fuel, rfl⟩ : ∃ less, fuel = less + 1 := ⟨fuel - 1, by omega⟩
    have spelled : Page.chars ⟨[], last⟩ = last.chars ++ [] := by simp [Page.chars]
    obtain ⟨kept, next, subset, start⟩ := exists_readTokens_trim trim last.chars fuel line
      (by simp : ∀ c, ([] : List Char).head? = some c → isBlank c = false)
    have braceless : '\x7b' ∉ kept ++ [] := by
      rw [List.append_nil]
      exact fun member => last.braceless (subset _ member)
    obtain ⟨data, plain, text⟩ := exists_plainText_last braceless next
    rw [spelled, start, readTokens, if_neg Bool.false_ne_true]
    dsimp only
    rw [text]
    exact Lexed.nil.after_data plain
  | cons part parts ih =>
    obtain ⟨text, tag⟩ := part
    obtain ⟨here, rest_readable⟩ := List.forall_mem_cons.mp readable
    obtain ⟨fuel, rfl⟩ : ∃ less, fuel = less + 1 := ⟨fuel - 1, by omega⟩
    let rest := Page.chars ⟨parts, last⟩
    have spelled : Page.chars ⟨(text, tag) :: parts, last⟩ = text.chars ++ (tag.chars ++ rest) := by
      simp [Page.chars, rest]
    obtain ⟨inside, begins⟩ := PlainTag.exists_chars tag
    obtain ⟨kept, next, subset, start⟩ := exists_readTokens_trim trim text.chars fuel line
      (by rw [begins]; rintro c ⟨⟩; decide :
        ∀ c, (tag.chars ++ rest).head? = some c → isBlank c = false)
    have braceless : '\x7b' ∉ kept := fun member => text.braceless (subset _ member)
    have later := ih rest_readable
    rw [spelled, List.length_append] at enough
    have short : (tag.chars ++ rest).length < fuel + 1 := by omega
    rw [spelled, start]
    cases tag with
    | block block => exact lexed_block braceless later here short next
    | comment comment => exact lexed_comment braceless later comment short next
    | assignment assignment => exact lexed_assignment braceless later here short next

theorem PlainTag.getLast?_chars (tag : PlainTag) : tag.chars.getLast? = some '\x7d' := by
  cases tag with
  | block block =>
    have ending : ModelCalls.closing = ['\x7d'] ++ ['\x7d'] := rfl
    rw [PlainTag.chars, PlainBlock.chars, ending, ← List.append_assoc, List.getLast?_concat]
  | comment comment =>
    have ending : ['#', '\x7d'] = ['#'] ++ ['\x7d'] := rfl
    rw [PlainTag.chars, PlainComment.chars, ending, ← List.append_assoc, List.getLast?_concat]
  | assignment assignment =>
    have ending : ['%', '\x7d'] = ['%'] ++ ['\x7d'] := rfl
    rw [PlainTag.chars, PlainAssignment.chars, ending, ← List.append_assoc, List.getLast?_concat]

theorem getLast?_chars_of_parts (front : List (PlainText × PlainTag))
    (part : PlainText × PlainTag) {last : PlainText} (empty : last.chars = []) :
    (Page.chars ⟨front ++ [part], last⟩).getLast? = some '\x7d' := by
  have spelled : Page.chars ⟨front ++ [part], last⟩ =
      (front.flatMap fun part => part.1.chars ++ part.2.chars) ++ part.1.chars ++ part.2.chars := by
    simp [Page.chars, empty]
  rw [spelled, List.getLast?_append, PlainTag.getLast?_chars]
  rfl

/-- A character at the end of a page that is no brace belongs to the last text. -/
theorem exists_dropLast (parts : List (PlainText × PlainTag)) (last : PlainText) {c : Char}
    (different : c ≠ '\x7d') :
    ∃ kept : PlainText, (if (Page.chars ⟨parts, last⟩).getLast? == some c then
      (Page.chars ⟨parts, last⟩).dropLast else Page.chars ⟨parts, last⟩) =
        Page.chars ⟨parts, kept⟩ := by
  split
  next ends =>
    rw [beq_iff_eq] at ends
    rcases List.eq_nil_or_concat last.chars with empty | ⟨chars, d, spelled⟩
    · rcases List.eq_nil_or_concat parts with rfl | ⟨front, part, rfl⟩
      · simp [Page.chars, empty] at ends
      · rw [List.concat_eq_append, getLast?_chars_of_parts front part empty] at ends
        exact absurd (Option.some.inj ends).symm different
    · rw [List.concat_eq_append] at spelled
      have braceless : '\x7b' ∉ chars := fun member =>
        last.braceless (spelled ▸ List.mem_append_left _ member)
      refine ⟨⟨chars, braceless⟩, ?_⟩
      rw [Page.chars, spelled, ← List.append_assoc, List.dropLast_concat]
      rfl
  next => exact ⟨last, rfl⟩

/-- One line break at the end of a template does not count: it may belong to the last text. -/
theorem exists_withoutFinalNewline (parts : List (PlainText × PlainTag)) (last : PlainText) :
    ∃ kept : PlainText, withoutFinalNewline (Page.chars ⟨parts, last⟩) =
      Page.chars ⟨parts, kept⟩ := by
  obtain ⟨middle, first⟩ := exists_dropLast parts last (by decide : '\n' ≠ '\x7d')
  obtain ⟨kept, second⟩ := exists_dropLast parts middle (by decide : '\r' ≠ '\x7d')
  refine ⟨kept, ?_⟩
  rw [withoutFinalNewline]
  dsimp only
  rw [first, second]

/-- The tokens of a page are those of its calls and assignments, whatever signs their tags have. -/
theorem lexed_tokens {page : Page} (readable : page.Readable) :
    Lexed (page.blocks.map (·.call)) (Template.tokens page.text) := by
  obtain ⟨parts, last⟩ := page
  obtain ⟨kept, same⟩ := exists_withoutFinalNewline parts last
  rw [Template.tokens, Page.text, String.toList_ofList, same]
  exact lexed_readTokens parts kept readable false _ 1 (by omega)

end Template
end SqlPipeline
