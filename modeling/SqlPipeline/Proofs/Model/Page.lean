import Mathlib.Data.Bool.AllAny
import Mathlib.Data.List.TakeDrop
import Mathlib.Data.List.TakeWhile
import SqlPipeline.Proofs.Model.Block

/-!
# Pages of plain calls

A page is text with tags in it.  Most tags are blocks that hold one call of `ref`, `source` or
`config` each, whose arguments are quoted texts, with blanks around every part of the call and
perhaps a comma after the last argument.  The others are comments and assignments of a quoted text
to a name.  What the search for calls finds in a page is what its blocks say in order, apart from
blocks that it does not see: those with a sign inside their braces, with blanks before the
arguments, or with a comma after the arguments of a reference.
-/

namespace SqlPipeline

open Text

namespace Text

/-- A blank character is no word character. -/
theorem isWord_of_isBlank {c : Char} (blank : isBlank c = true) : isWord c = false := by
  have codes : ∀ n ∈ List.range' 9 5 ++ [0x20, 0x85, 0xA0, 0x1680] ++ List.range' 0x2000 11 ++
      [0x2028, 0x2029, 0x202F, 0x205F, 0x3000], isWord (Char.ofNat n) = false := by
    decide +kernel
  have code : c.toNat ∈ List.range' 9 5 ++ [0x20, 0x85, 0xA0, 0x1680] ++ List.range' 0x2000 11 ++
      [0x2028, 0x2029, 0x202F, 0x205F, 0x3000] := by
    simp only [isBlank, Bool.or_eq_true, Bool.and_eq_true, decide_eq_true_eq, beq_iff_eq] at blank
    simp only [List.mem_append, List.mem_range'_1, List.mem_cons, List.not_mem_nil, or_false]
    omega
  have same := codes _ code
  rwa [Char.ofNat_toNat] at same

end Text

/-! ## Pages -/

/-- Blanks beside a part of a call. -/
structure Gap where
  chars : List Char
  blank : ∀ c ∈ chars, isBlank c = true

namespace Gap

/-- No blanks. -/
def empty : Gap := ⟨[], List.forall_mem_nil _⟩

/-- A single space. -/
def space : Gap := ⟨[' '], List.forall_mem_singleton.mpr (by decide)⟩

end Gap

/-- A text in quotes. -/
structure Literal where
  quote : Char
  content : List Char
  quotes : quote = '\'' ∨ quote = '"'
  inside : ∀ c ∈ content, c ≠ quote ∧ c ≠ '\x7d'

namespace Literal

/-- The text with its quotes. -/
def chars (literal : Literal) : List Char :=
  literal.quote :: (literal.content ++ [literal.quote])

/-- The text without its quotes. -/
def value (literal : Literal) : String := String.ofList literal.content

end Literal

/-- A quoted argument. -/
structure Item where
  before : Gap
  literal : Literal
  after : Gap

/-- The characters of the argument. -/
def Item.chars (item : Item) : List Char :=
  item.before.chars ++ item.literal.chars ++ item.after.chars

/-- A quoted argument without a keyword. -/
structure Positional extends Item where
  undivided : ',' ∉ literal.content

/-- A keyword before an argument. -/
structure Keyword where
  before : Gap
  name : List Char
  after : Gap
  nonempty : name ≠ []
  word : ∀ c ∈ name, isWord c = true

namespace Keyword

/-- The characters of the keyword and the equals sign. -/
def chars (keyword : Keyword) : List Char :=
  keyword.before.chars ++ keyword.name ++ keyword.after.chars ++ ['=']

/-- The keyword as a text. -/
def text (keyword : Keyword) : String := String.ofList keyword.name

end Keyword

/-- An argument that may have a keyword. -/
abbrev Argument := Option Keyword × Item

/-- The characters of an argument. -/
def Argument.chars (argument : Argument) : List Char :=
  (argument.1.elim [] Keyword.chars) ++ argument.2.chars

/-- The characters of arguments with commas between them. -/
def argumentChars : List Argument → List Char
  | [] => []
  | first :: rest => Argument.chars first ++ rest.flatMap fun argument => ',' :: argument.chars

/-- The characters of a comma after the last argument and the blanks behind it, if there is one. -/
def lastComma : Option Gap → List Char
  | none => []
  | some gap => ',' :: gap.chars

/-- A call with quoted arguments. -/
inductive PlainCall where
  | ref (package : Option Positional) (name : Positional)
  | source (group table : Positional)
  | config (settings : List (Keyword × Item))

namespace PlainCall

/-- The name of the function. -/
def function : PlainCall → String
  | ref _ _ => "ref"
  | source _ _ => "source"
  | config _ => "config"

/-- The arguments in order. -/
def arguments : PlainCall → List Argument
  | ref none name => [(none, name.toItem)]
  | ref (some package) name => [(none, package.toItem), (none, name.toItem)]
  | source group table => [(none, group.toItem), (none, table.toItem)]
  | config settings => settings.map fun setting => (some setting.1, setting.2)

/-- The characters of the call, with blanks before its arguments and perhaps a comma after them. -/
def chars (call : PlainCall) (spacing : Gap) (comma : Option Gap) : List Char :=
  call.function.toList ++ spacing.chars ++ ['('] ++ argumentChars call.arguments ++
    lastComma comma ++ [')']

/-- What the call says about its model. -/
def meaning : PlainCall → ModelCalls
  | ref package name =>
    ⟨[.model (package.map fun package => package.literal.value) name.literal.value], .empty⟩
  | source group table => ⟨[.source group.literal.value table.literal.value], .empty⟩
  | config settings =>
    ⟨[], .ofList (settings.map fun setting => (setting.1.text, setting.2.literal.value))⟩

end PlainCall

/-- A sign beside the braces of a block. -/
inductive Mark where
  | none
  | minus
  | plus
deriving DecidableEq

/-- The characters of the sign. -/
def Mark.chars : Mark → List Char
  | none => []
  | minus => ['-']
  | plus => ['+']

/-- A block in double braces that holds a call. -/
structure PlainBlock where
  opening : Mark
  before : Gap
  call : PlainCall
  /-- The blanks between the function and its arguments. -/
  spacing : Gap
  /-- The blanks behind a comma after the last argument, if there is one. -/
  comma : Option Gap
  after : Gap
  closing : Mark

namespace PlainBlock

/-- The characters of the call. -/
def callChars (block : PlainBlock) : List Char := block.call.chars block.spacing block.comma

/-- What stands between the braces. -/
def content (block : PlainBlock) : List Char :=
  block.opening.chars ++ block.before.chars ++ block.callChars ++ block.after.chars ++
    block.closing.chars

/-- The characters of the block. -/
def chars (block : PlainBlock) : List Char :=
  ModelCalls.opening ++ block.content ++ ModelCalls.closing

/-- The search for calls sees the block: there is no sign inside its braces, the arguments follow
the function at once, and if a comma stands after them they are settings. -/
def Seen (block : PlainBlock) : Prop :=
  (block.opening = .none ∧ block.closing = .none) ∧ block.spacing.chars = [] ∧
    (block.comma.isSome = true → block.call.function = "config")

instance (block : PlainBlock) : Decidable block.Seen :=
  inferInstanceAs (Decidable ((_ ∧ _) ∧ _ ∧ (_ → _)))

/-- What the search for calls makes of the block. -/
def found (block : PlainBlock) : ModelCalls := if block.Seen then block.call.meaning else ∅

end PlainBlock

/-- A comment. -/
structure PlainComment where
  content : List Char
  inside : ∀ c ∈ content, c ≠ '#' ∧ c ≠ '\x7b'

/-- The characters of the comment. -/
def PlainComment.chars (comment : PlainComment) : List Char :=
  ['\x7b', '#'] ++ comment.content ++ ['#', '\x7d']

/-- A tag that gives a name a quoted text. -/
structure PlainAssignment where
  opening : Mark
  before : Gap
  name : Keyword
  item : Item
  closing : Mark
  /-- A blank stands before the name. -/
  parted : name.before.chars ≠ []
  braceless : '\x7b' ∉ item.literal.content

namespace PlainAssignment

/-- What stands between the braces with percent signs. -/
def content (assignment : PlainAssignment) : List Char :=
  assignment.opening.chars ++ assignment.before.chars ++ "set".toList ++
    Argument.chars (some assignment.name, assignment.item) ++ assignment.closing.chars

/-- The characters of the tag. -/
def chars (assignment : PlainAssignment) : List Char :=
  ['\x7b', '%'] ++ assignment.content ++ ['%', '\x7d']

end PlainAssignment

/-- A tag of a page. -/
inductive PlainTag where
  | block (block : PlainBlock)
  | comment (comment : PlainComment)
  | assignment (assignment : PlainAssignment)

namespace PlainTag

/-- The characters of the tag. -/
def chars : PlainTag → List Char
  | .block call => call.chars
  | .comment remark => remark.chars
  | .assignment binding => binding.chars

/-- The block that the tag is. -/
def block? : PlainTag → Option PlainBlock
  | .block call => some call
  | .comment _ => none
  | .assignment _ => none

end PlainTag

/-- Text without an opening brace. -/
structure PlainText where
  chars : List Char
  braceless : '\x7b' ∉ chars

/-- Text with tags in it. -/
structure Page where
  /-- The tags, each with the text before it. -/
  parts : List (PlainText × PlainTag)
  last : PlainText

namespace Page

/-- The characters of the page. -/
def chars (page : Page) : List Char :=
  (page.parts.flatMap fun part => part.1.chars ++ part.2.chars) ++ page.last.chars

/-- The page as a text. -/
def text (page : Page) : String := String.ofList page.chars

/-- The blocks of the page in order. -/
def blocks (page : Page) : List PlainBlock := page.parts.filterMap (·.2.block?)

/-- What the search for calls makes of the page. -/
def found (page : Page) : ModelCalls :=
  page.blocks.foldr (fun block calls => block.found ++ calls) ∅

end Page

/-! ## Reading arguments -/

section

variable {item : Item} {argument : Argument}

/-- What holds of both quotes holds of the quote of a text. -/
theorem Literal.of_quotes (literal : Literal) {p : Char → Prop} (single : p '\'') (double : p '"') :
    p literal.quote := by
  rcases literal.quotes with same | same
  · rwa [same]
  · rwa [same]

theorem Literal.isBlank_quote (literal : Literal) : isBlank literal.quote = false :=
  literal.of_quotes (p := (isBlank · = false)) (by decide) (by decide)

theorem unquoted?_of_ne {quote other : Char} (different : quote ≠ other) (text : List Char) :
    ModelCalls.unquoted? quote (other :: text) = none := by
  rw [ModelCalls.unquoted?, after?_cons_of_ne different]
  rfl

theorem unquoted?_quoted (quote : Char) (content : List Char) :
    ModelCalls.unquoted? quote (quote :: (content ++ [quote])) = some content := by
  have rest := after?_append [quote] (content ++ [quote])
  rw [List.singleton_append] at rest
  rw [ModelCalls.unquoted?, rest, Option.bind_eq_bind, Option.bind_some, List.getLast?_append]
  simp

/-- An item is read as the text between its quotes. -/
theorem literal?_item (item : Item) : ModelCalls.literal? item.chars = some item.literal.value := by
  have trimmed : trimChars item.chars = item.literal.chars := by
    refine trimChars_append item.before.blank item.after.blank (List.cons_ne_nil _ _) ?_ ?_
    · intro c here
      cases here
      exact item.literal.isBlank_quote
    · intro c here
      rw [Literal.chars, ← List.cons_append, List.getLast?_concat] at here
      cases here
      exact item.literal.isBlank_quote
  rw [ModelCalls.literal?, trimmed, Literal.chars]
  rcases item.literal.quotes with single | double
  · rw [single, unquoted?_quoted]
    rfl
  · rw [double, unquoted?_of_ne (by decide), unquoted?_quoted]
    rfl

theorem Gap.not_mem {c : Char} (gap : Gap) (visible : isBlank c = false) : c ∉ gap.chars := by
  intro member
  rw [gap.blank c member] at visible
  cases visible

/-- What holds of some blanks and of a character holds of the first character where the blanks stand
before that one, if there are any. -/
theorem Gap.of_head {gap : Gap} {p : Char → Prop} (blanks : ∀ d ∈ gap.chars, p d) {c : Char}
    (first : p c) {rest : List Char} {d : Char}
    (here : (gap.chars ++ c :: rest).head? = some d) : p d := by
  cases spelled : gap.chars with
  | nil =>
    rw [spelled] at here
    cases here
    exact first
  | cons e chars =>
    rw [spelled] at here
    cases here
    exact blanks d (spelled ▸ List.mem_cons_self)

theorem Positional.not_mem_comma (item : Positional) : ',' ∉ item.toItem.chars := by
  have apart : item.literal.quote ≠ ',' :=
    item.literal.of_quotes (p := (· ≠ ',')) (by decide) (by decide)
  have front := item.before.not_mem (c := ',') (by decide)
  have back := item.after.not_mem (c := ',') (by decide)
  simp [Item.chars, Literal.chars, front, back, apart.symm, item.undivided]

/-- One quoted argument is read as its value. -/
theorem literals?_one (item : Positional) :
    ModelCalls.literals? (argumentChars [(none, item.toItem)]) = some [item.literal.value] := by
  have spelled : argumentChars [(none, item.toItem)] = item.toItem.chars :=
    List.append_nil _
  rw [spelled, ModelCalls.literals?, splitOnChar_of_not_mem item.not_mem_comma, List.mapM_cons,
    literal?_item]
  rfl

/-- Two quoted arguments are read as their values. -/
theorem literals?_two (first second : Positional) :
    ModelCalls.literals? (argumentChars [(none, first.toItem), (none, second.toItem)]) =
      some [first.literal.value, second.literal.value] := by
  have spelled : argumentChars [(none, first.toItem), (none, second.toItem)] =
      first.toItem.chars ++ ',' :: second.toItem.chars := by
    simp [argumentChars, Argument.chars]
  rw [spelled, ModelCalls.literals?, splitOnChar_append_cons first.not_mem_comma,
    splitOnChar_of_not_mem second.not_mem_comma, List.mapM_cons, List.mapM_cons, literal?_item,
    literal?_item]
  rfl

theorem literal?_gap (gap : Gap) : ModelCalls.literal? gap.chars = none := by
  have nothing : gap.chars.dropWhile isBlank = [] := List.dropWhile_eq_nil_iff.mpr gap.blank
  rw [ModelCalls.literal?, trimChars, nothing]
  rfl

/-- A comma after quoted arguments leaves something behind it that is no argument. -/
theorem literals?_comma {arguments : List Argument}
    (listed : (∃ item : Positional, arguments = [(none, item.toItem)]) ∨
      ∃ first second : Positional, arguments = [(none, first.toItem), (none, second.toItem)])
    (gap : Gap) :
    ModelCalls.literals? (argumentChars arguments ++ lastComma (some gap)) = none := by
  have last : splitOnChar ',' gap.chars = [gap.chars] :=
    splitOnChar_of_not_mem (gap.not_mem (by decide))
  rcases listed with ⟨item, rfl⟩ | ⟨first, second, rfl⟩
  · have spelled : argumentChars [(none, item.toItem)] ++ lastComma (some gap) =
        item.toItem.chars ++ ',' :: gap.chars := by
      simp [argumentChars, Argument.chars, lastComma]
    rw [spelled, ModelCalls.literals?, splitOnChar_append_cons item.not_mem_comma, last,
      List.mapM_cons, List.mapM_cons, literal?_item, literal?_gap]
    rfl
  · have spelled : argumentChars [(none, first.toItem), (none, second.toItem)] ++
        lastComma (some gap) =
          first.toItem.chars ++ ',' :: (second.toItem.chars ++ ',' :: gap.chars) := by
      simp [argumentChars, Argument.chars, lastComma]
    rw [spelled, ModelCalls.literals?, splitOnChar_append_cons first.not_mem_comma,
      splitOnChar_append_cons second.not_mem_comma, last, List.mapM_cons, List.mapM_cons,
      List.mapM_cons, literal?_item, literal?_item, literal?_gap]
    rfl

end

/-! ## Reading settings -/

section

variable {text rest : List Char} {value : String}

theorem length_le_of_settingValue? (found : ModelCalls.settingValue? text = some (value, rest)) :
    rest.length ≤ text.length := by
  rw [ModelCalls.settingValue?] at found
  split at found
  next signed sign =>
    split at found
    next quote after quoted =>
      split at found
      · obtain ⟨⟨content, last⟩, closed, same⟩ := Option.map_eq_some_iff.mp found
        obtain ⟨rfl, rfl⟩ := Prod.mk.inj same
        have first := (List.dropWhile_suffix (l := text) isBlank).length_le
        have second := (List.dropWhile_suffix (l := signed) isBlank).length_le
        have third := congrArg List.length (eq_append_of_splitFirst? closed)
        rw [sign] at first
        rw [quoted] at second
        simp only [List.length_append, List.length_cons] at first second third
        omega
      · cases found
    next => cases found
  next => cases found

theorem settingsIn_eq_of_length_lt {fuel more : Nat} (enough : text.length < fuel)
    (plenty : text.length < more) :
    ModelCalls.settingsIn fuel text = ModelCalls.settingsIn more text := by
  induction fuel generalizing text more with
  | zero => omega
  | succ fuel ih =>
    obtain ⟨more, rfl⟩ : ∃ rest, more = rest + 1 := ⟨more - 1, by omega⟩
    cases text with
    | nil => rfl
    | cons c text =>
      rw [ModelCalls.settingsIn, ModelCalls.settingsIn]
      rw [List.length_cons] at enough plenty
      have parts := List.span_eq_takeWhile_dropWhile isWord (c :: text)
      have lengths := congrArg List.length
        (List.takeWhile_append_dropWhile (p := isWord) (l := c :: text))
      rw [List.length_append, List.length_cons] at lengths
      rw [parts]
      dsimp only
      split
      · rw [ih (by omega : text.length < fuel) (by omega : text.length < more)]
      next word =>
        have some_word := List.length_pos_iff.mpr (mt List.isEmpty_iff.mpr word)
        split
        next value rest found =>
          have shorter := length_le_of_settingValue? found
          rw [ih (by omega : rest.length < fuel) (by omega : rest.length < more)]
        next =>
          rw [ih (by omega : ((c :: text).dropWhile isWord).length < fuel)
            (by omega : ((c :: text).dropWhile isWord).length < more)]

/-- All settings in a text. -/
def ModelCalls.settingsOf (text : List Char) : List (String × String) :=
  ModelCalls.settingsIn (text.length + 1) text

theorem settingsOf_append_of_not_word {gap : List Char} (skipped : ∀ c ∈ gap, isWord c = false)
    (rest : List Char) : ModelCalls.settingsOf (gap ++ rest) = ModelCalls.settingsOf rest := by
  induction gap with
  | nil => rfl
  | cons c gap ih =>
    obtain ⟨first, skipped⟩ := List.forall_mem_cons.mp skipped
    rw [List.cons_append, ← ih skipped, ModelCalls.settingsOf, List.length_cons,
      ModelCalls.settingsIn, List.span_eq_takeWhile_dropWhile, List.takeWhile_cons, first]
    rfl

/-- After a keyword, an equals sign and an item are read as the value of the item. -/
theorem settingValue?_item (gap : Gap) (item : Item) (rest : List Char) :
    ModelCalls.settingValue?
        (gap.chars ++ '=' :: (item.before.chars ++ (item.literal.chars ++ rest))) =
      some (item.literal.value, rest) := by
  have signed : (gap.chars ++ '=' :: (item.before.chars ++ (item.literal.chars ++ rest))).dropWhile
      isBlank = '=' :: (item.before.chars ++ (item.literal.chars ++ rest)) := by
    refine dropWhile_append_of_head gap.blank fun c here => ?_
    cases here
    decide
  have quoted : (item.before.chars ++ (item.literal.chars ++ rest)).dropWhile isBlank =
      item.literal.quote :: (item.literal.content ++ ([item.literal.quote] ++ rest)) := by
    rw [dropWhile_append_of_head item.before.blank]
    · rw [Literal.chars, List.cons_append, List.append_assoc]
    · intro c here
      cases here
      exact item.literal.isBlank_quote
  have inside : item.literal.quote ∉ item.literal.content :=
    fun member => (item.literal.inside _ member).1 rfl
  have closed : splitFirst? [item.literal.quote]
      (item.literal.content ++ ([item.literal.quote] ++ rest)) =
        some (item.literal.content, rest) := by
    rw [splitFirst?_append_of_not_mem inside, splitFirst?_append]
    simp
  rw [ModelCalls.settingValue?, signed]
  split
  next after same =>
    obtain ⟨-, rfl⟩ := List.cons.inj same
    rw [quoted]
    dsimp only
    rw [if_pos item.literal.quotes, closed]
    rfl
  next other => exact absurd rfl (other _)

/-- An item with a keyword is a setting. -/
theorem settingsOf_argument (keyword : Keyword) (item : Item) (rest : List Char) :
    ModelCalls.settingsOf (Argument.chars (some keyword, item) ++ rest) =
      (keyword.text, item.literal.value) :: ModelCalls.settingsOf rest := by
  have blanks : ∀ gap : Gap, ∀ c ∈ gap.chars, isWord c = false :=
    fun gap c member => isWord_of_isBlank (gap.blank c member)
  let tail := keyword.after.chars ++ '=' :: (item.before.chars ++ (item.literal.chars ++
    (item.after.chars ++ rest)))
  have spelled : Argument.chars (some keyword, item) ++ rest =
      keyword.before.chars ++ (keyword.name ++ tail) := by
    simp [tail, Argument.chars, Keyword.chars, Item.chars]
  have boundary : ∀ c, tail.head? = some c → isWord c = false :=
    fun c here => Gap.of_head (blanks keyword.after) (by decide) here
  have word : (keyword.name ++ tail).takeWhile isWord = keyword.name :=
    takeWhile_append_of_head keyword.word boundary
  have after : (keyword.name ++ tail).dropWhile isWord = tail :=
    dropWhile_append_of_head keyword.word boundary
  have found := settingValue?_item keyword.after item (item.after.chars ++ rest)
  have shorter : (item.after.chars ++ rest).length ≤ tail.length :=
    length_le_of_settingValue? found
  rw [spelled, settingsOf_append_of_not_word (blanks keyword.before), ModelCalls.settingsOf]
  obtain ⟨c, name, spelling⟩ := List.exists_cons_of_ne_nil keyword.nonempty
  rw [spelling, List.cons_append, ModelCalls.settingsIn, ← List.cons_append, ← spelling,
    List.span_eq_takeWhile_dropWhile, word, after]
  dsimp only
  rw [if_neg (by simp [keyword.nonempty]), found]
  dsimp only
  rw [← settingsOf_append_of_not_word (blanks item.after) rest]
  refine congrArg _ (settingsIn_eq_of_length_lt ?_ (Nat.lt_succ_self _))
  have total : (keyword.name ++ tail).length = keyword.name.length + tail.length :=
    List.length_append
  have positive := List.length_pos_iff.mpr keyword.nonempty
  omega

theorem settingsOf_comma (rest : List Char) :
    ModelCalls.settingsOf (',' :: rest) = ModelCalls.settingsOf rest := by
  have comma : ∀ c ∈ [','], isWord c = false := List.all_iff_forall_prop.mp (by decide)
  exact settingsOf_append_of_not_word comma rest

theorem settingsOf_lastComma (comma : Option Gap) :
    ModelCalls.settingsOf (lastComma comma) = [] := by
  cases comma with
  | none => rfl
  | some gap =>
    have blank : ∀ c ∈ gap.chars, isWord c = false :=
      fun c member => isWord_of_isBlank (gap.blank c member)
    rw [lastComma, settingsOf_comma, ← List.append_nil gap.chars,
      settingsOf_append_of_not_word blank]
    rfl

/-- Items with keywords and commas between them are settings in order, and a comma after them
changes nothing. -/
theorem settingsOf_config (settings : List (Keyword × Item)) (comma : Option Gap) :
    ModelCalls.settingsOf
        (argumentChars (PlainCall.config settings).arguments ++ lastComma comma) =
      settings.map fun setting => (setting.1.text, setting.2.literal.value) := by
  have rest : ∀ settings : List (Keyword × Item), ModelCalls.settingsOf
      (((PlainCall.config settings).arguments.flatMap fun argument => ',' :: argument.chars) ++
        lastComma comma) =
        settings.map fun setting => (setting.1.text, setting.2.literal.value) := by
    intro settings
    induction settings with
    | nil => exact settingsOf_lastComma comma
    | cons setting settings ih =>
      rw [PlainCall.arguments, List.map_cons, List.flatMap_cons, List.append_assoc,
        List.cons_append, settingsOf_comma, settingsOf_argument]
      exact congrArg _ ih
  cases settings with
  | nil => exact settingsOf_lastComma comma
  | cons setting settings =>
    rw [PlainCall.arguments, List.map_cons, argumentChars, List.append_assoc, settingsOf_argument]
    exact congrArg _ (rest settings)

end

/-! ## Reading blocks -/

section

variable {function : String} {content : List Char}

theorem PlainCall.function_mem (call : PlainCall) :
    call.function ∈ ["ref", "source", "config"] := by
  cases call <;> simp [PlainCall.function]

theorem PlainBlock.getLast?_callChars (block : PlainBlock) :
    block.callChars.getLast? = some ')' := by
  rw [callChars, PlainCall.chars, List.getLast?_concat]

/-- The arguments of a call are found by the name of its function, if they follow it at once. -/
theorem argumentsOf?_callChars {block : PlainBlock} (close : block.spacing.chars = []) :
    ModelCalls.argumentsOf? block.call.function block.callChars =
      some (argumentChars block.call.arguments ++ lastComma block.comma) := by
  have rest : after? (block.call.function.toList ++ ['(']) block.callChars =
      some (argumentChars block.call.arguments ++ lastComma block.comma ++ [')']) := by
    rw [PlainBlock.callChars, PlainCall.chars, close, List.append_nil, List.append_assoc,
      List.append_assoc, after?_append, List.append_assoc]
  rw [ModelCalls.argumentsOf?, rest, Option.bind_eq_bind, Option.bind_some, List.getLast?_concat,
    if_pos rfl, List.dropLast_concat]

theorem after?_append_append (front pattern text : List Char) :
    after? (front ++ pattern) (front ++ text) = after? pattern text := by
  induction front with
  | nil => rfl
  | cons c front ih => rw [List.cons_append, List.cons_append, after?, if_pos rfl, ih]

/-- No arguments are found if blanks stand before them. -/
theorem argumentsOf?_of_spacing {block : PlainBlock} (apart : block.spacing.chars ≠ []) :
    ModelCalls.argumentsOf? block.call.function block.callChars = none := by
  obtain ⟨c, blanks, spelled⟩ := List.exists_cons_of_ne_nil apart
  have different : '(' ≠ c := by
    rintro rfl
    have blank := block.spacing.blank '(' (spelled ▸ List.mem_cons_self)
    exact absurd blank (by decide)
  have whole : block.callChars = block.call.function.toList ++ (c :: (blanks ++ ['('] ++
      argumentChars block.call.arguments ++ lastComma block.comma ++ [')'])) := by
    simp [PlainBlock.callChars, PlainCall.chars, spelled]
  rw [ModelCalls.argumentsOf?, whole, after?_append_append, after?_cons_of_ne different]
  rfl

/-- A block that begins otherwise than the name of a function is no call of it. -/
theorem argumentsOf?_of_head {c d : Char} {name text : List Char}
    (spelled : function.toList = c :: name) (different : c ≠ d) :
    ModelCalls.argumentsOf? function (d :: text) = none := by
  rw [ModelCalls.argumentsOf?, spelled, List.cons_append, after?_cons_of_ne different]
  rfl

/-- A block that does not end in a parenthesis is no call. -/
theorem argumentsOf?_of_last (open_ended : content.getLast? ≠ some ')') :
    ModelCalls.argumentsOf? function content = none := by
  rw [ModelCalls.argumentsOf?]
  cases found : after? (function.toList ++ ['(']) content with
  | none => rfl
  | some rest =>
    have last : rest.getLast? ≠ some ')' := by
      intro closed
      rw [eq_append_of_after? found, List.getLast?_append, closed] at open_ended
      exact open_ended rfl
    rw [Option.bind_eq_bind, Option.bind_some, if_neg last]

/-- A block that is no call of the three functions says nothing. -/
theorem ofBlock_of_no_call
    (none : ∀ function ∈ ["ref", "source", "config"],
      ModelCalls.argumentsOf? function content = .none) : ModelCalls.ofBlock content = ∅ := by
  have ref := none "ref" (by decide)
  have source := none "source" (by decide)
  have config := none "config" (by decide)
  rw [ModelCalls.ofBlock, ModelCalls.addBlock, ModelCalls.model?, ModelCalls.source?,
    ModelCalls.settings?, ref, source, config]
  rfl

/-- A block begins with the first letter of its function. -/
theorem PlainBlock.exists_initial (block : PlainBlock) :
    ∃ c name rest, block.call.function.toList = c :: name ∧ block.callChars = c :: rest ∧
      c ∈ ['r', 's', 'c'] := by
  have named : ∃ c name, block.call.function.toList = c :: name ∧ c ∈ ['r', 's', 'c'] := by
    cases block.call with
    | ref =>
      exact ⟨_, _, (by decide : "ref".toList = 'r' :: "ef".toList), by decide⟩
    | source =>
      exact ⟨_, _, (by decide : "source".toList = 's' :: "ource".toList), by decide⟩
    | config =>
      exact ⟨_, _, (by decide : "config".toList = 'c' :: "onfig".toList), by decide⟩
  obtain ⟨c, name, spelled, initial⟩ := named
  exact ⟨c, name, _, spelled, by rw [callChars, PlainCall.chars, spelled]; rfl, initial⟩

/-- A block is a call of its own function or of none. -/
theorem argumentsOf?_of_other {block : PlainBlock} (listed : function ∈ ["ref", "source", "config"])
    (other : function ≠ block.call.function) :
    ModelCalls.argumentsOf? function block.callChars = none := by
  obtain ⟨c, name, rest, spelled, begins, -⟩ := block.exists_initial
  have initials : ∀ first ∈ ["ref", "source", "config"], ∀ second ∈ ["ref", "source", "config"],
      first ≠ second → first.toList.head? ≠ second.toList.head? := by decide
  have apart := initials _ listed _ block.call.function_mem other
  obtain ⟨d, letters, same⟩ : ∃ d letters, function.toList = d :: letters := by
    have nonempty : ∀ name ∈ ["ref", "source", "config"], name.toList ≠ [] := by decide
    exact List.exists_cons_of_ne_nil (nonempty _ listed)
  rw [spelled, same, List.head?_cons, List.head?_cons] at apart
  rw [begins]
  exact argumentsOf?_of_head same fun equal => apart (congrArg some equal)

/-- A block that is seen says what its call means. -/
theorem ofBlock_of_seen {block : PlainBlock} (close : block.spacing.chars = [])
    (settled : block.comma.isSome = true → block.call.function = "config") :
    ModelCalls.ofBlock block.callChars = block.call.meaning := by
  have arguments := argumentsOf?_callChars close
  have others : ∀ function ∈ ["ref", "source", "config"], function ≠ block.call.function →
      ModelCalls.argumentsOf? function block.callChars = none :=
    fun function => argumentsOf?_of_other
  cases call : block.call with
  | ref package name =>
    rw [call] at arguments settled
    have alone : block.comma = none :=
      Option.not_isSome_iff_eq_none.mp fun comma =>
        absurd (settled comma) (by decide : "ref" ≠ "config")
    have model : ModelCalls.model? block.callChars = some
        (.model (package.map fun package => package.literal.value) name.literal.value) := by
      change ModelCalls.argumentsOf? "ref" _ = _ at arguments
      rw [ModelCalls.model?, arguments, Option.bind_eq_bind, Option.bind_some, alone, lastComma,
        List.append_nil]
      cases package with
      | none =>
        rw [PlainCall.arguments, literals?_one]
        rfl
      | some package =>
        rw [PlainCall.arguments, literals?_two]
        rfl
    rw [ModelCalls.ofBlock, ModelCalls.addBlock, model]
    rfl
  | source group table =>
    rw [call] at arguments settled
    have alone : block.comma = none :=
      Option.not_isSome_iff_eq_none.mp fun comma =>
        absurd (settled comma) (by decide : "source" ≠ "config")
    have no_model := others "ref" (by decide)
      (by rw [call]; exact (by decide : "ref" ≠ "source"))
    have source : ModelCalls.source? block.callChars = some
        (.source group.literal.value table.literal.value) := by
      change ModelCalls.argumentsOf? "source" _ = _ at arguments
      rw [ModelCalls.source?, arguments, Option.bind_eq_bind, Option.bind_some, alone, lastComma,
        List.append_nil, PlainCall.arguments, literals?_two]
      rfl
    rw [ModelCalls.ofBlock, ModelCalls.addBlock, ModelCalls.model?, no_model, source]
    rfl
  | config settings =>
    rw [call] at arguments
    have no_model := others "ref" (by decide)
      (by rw [call]; exact (by decide : "ref" ≠ "config"))
    have no_source := others "source" (by decide)
      (by rw [call]; exact (by decide : "source" ≠ "config"))
    have found : ModelCalls.settings? block.callChars =
        some (settings.map fun setting => (setting.1.text, setting.2.literal.value)) := by
      change ModelCalls.argumentsOf? "config" _ = _ at arguments
      rw [ModelCalls.settings?, arguments, Option.map_some]
      exact congrArg some (settingsOf_config settings block.comma)
    rw [ModelCalls.ofBlock, ModelCalls.addBlock, ModelCalls.model?, no_model, ModelCalls.source?,
      no_source, found]
    exact ModelCalls.empty_append (PlainCall.config settings).meaning

/-- A block with blanks before its arguments says nothing. -/
theorem ofBlock_of_spacing {block : PlainBlock} (apart : block.spacing.chars ≠ []) :
    ModelCalls.ofBlock block.callChars = ∅ := by
  refine ofBlock_of_no_call fun function listed => ?_
  by_cases own : function = block.call.function
  · rw [own]
    exact argumentsOf?_of_spacing apart
  · exact argumentsOf?_of_other listed own

/-- A reference with a comma after its arguments says nothing. -/
theorem ofBlock_of_comma {block : PlainBlock} (close : block.spacing.chars = [])
    (comma : block.comma.isSome = true) (reference : block.call.function ≠ "config") :
    ModelCalls.ofBlock block.callChars = ∅ := by
  obtain ⟨gap, same⟩ := Option.isSome_iff_exists.mp comma
  have arguments := argumentsOf?_callChars close
  have others : ∀ function ∈ ["ref", "source", "config"], function ≠ block.call.function →
      ModelCalls.argumentsOf? function block.callChars = none :=
    fun function => argumentsOf?_of_other
  have no_settings := others "config" (by decide) (Ne.symm reference)
  rw [same] at arguments
  cases call : block.call with
  | ref package name =>
    have no_source := others "source" (by decide)
      (by rw [call]; exact (by decide : "source" ≠ "ref"))
    rw [call] at arguments
    change ModelCalls.argumentsOf? "ref" _ = _ at arguments
    have none : ModelCalls.literals? (argumentChars (PlainCall.ref package name).arguments ++
        lastComma (some gap)) = .none := by
      refine literals?_comma ?_ gap
      cases package with
      | none => exact .inl ⟨name, rfl⟩
      | some package => exact .inr ⟨package, name, rfl⟩
    rw [ModelCalls.ofBlock, ModelCalls.addBlock, ModelCalls.model?, arguments, Option.bind_eq_bind,
      Option.bind_some, none, ModelCalls.source?, no_source, ModelCalls.settings?, no_settings]
    rfl
  | source group table =>
    have no_model := others "ref" (by decide)
      (by rw [call]; exact (by decide : "ref" ≠ "source"))
    rw [call] at arguments
    change ModelCalls.argumentsOf? "source" _ = _ at arguments
    have none : ModelCalls.literals? (argumentChars (PlainCall.source group table).arguments ++
        lastComma (some gap)) = .none :=
      literals?_comma (.inr ⟨group, table, rfl⟩) gap
    rw [ModelCalls.ofBlock, ModelCalls.addBlock, ModelCalls.model?, no_model, ModelCalls.source?,
      arguments, Option.bind_eq_bind, Option.bind_eq_bind, Option.bind_some, none,
      ModelCalls.settings?, no_settings]
    rfl
  | config settings =>
    rw [call] at reference
    exact absurd rfl reference

theorem trimChars_cons {c : Char} (visible : isBlank c = false) (text : List Char) :
    ∃ rest, trimChars (c :: text) = c :: rest := by
  have start : (c :: text).dropWhile isBlank = c :: text := by
    rw [List.dropWhile_cons, visible, if_neg Bool.false_ne_true]
  rw [trimChars, start, dropEndWhile, List.reverse_cons, List.dropWhile_append]
  split
  · rw [List.dropWhile_cons, visible, if_neg Bool.false_ne_true]
    exact ⟨[], rfl⟩
  · rw [List.reverse_append]
    exact ⟨_, rfl⟩

theorem Mark.exists_char {mark : Mark} (signed : mark ≠ .none) :
    ∃ c, mark.chars = [c] ∧ isBlank c = false ∧ c ∉ ['r', 's', 'c', ')'] := by
  cases mark with
  | none => exact absurd rfl signed
  | minus => exact ⟨'-', rfl, by decide, by decide⟩
  | plus => exact ⟨'+', rfl, by decide, by decide⟩

/-- A block begins with a letter. -/
theorem PlainBlock.visible_of_head? {block : PlainBlock} {c : Char} {text : List Char}
    (first : (block.callChars ++ text).head? = some c) : isBlank c = false := by
  obtain ⟨d, -, rest, -, begins, initial⟩ := block.exists_initial
  have letters : ∀ c ∈ ['r', 's', 'c'], isBlank c = false :=
    List.all_iff_forall_prop.mp (by decide)
  rw [begins, List.cons_append, List.head?_cons, Option.some.injEq] at first
  exact first ▸ letters d initial

theorem PlainBlock.callChars_ne_nil (block : PlainBlock) : block.callChars ≠ [] := by
  obtain ⟨c, -, rest, -, begins, -⟩ := block.exists_initial
  rw [begins]
  exact List.cons_ne_nil c rest

theorem PlainBlock.trimChars_content {block : PlainBlock} (opening : block.opening = .none)
    (closing : block.closing = .none) : trimChars block.content = block.callChars := by
  rw [content, opening, closing, Mark.chars, List.nil_append, List.append_nil]
  refine trimChars_append block.before.blank block.after.blank block.callChars_ne_nil
    (fun d here => ?_) (fun d here => ?_)
  · rw [← List.append_nil block.callChars] at here
    exact block.visible_of_head? here
  · rw [block.getLast?_callChars] at here
    cases here
    decide

/-- A block with a sign before its closing braces says nothing. -/
theorem ofBlock_of_closing {block : PlainBlock} (opening : block.opening = .none)
    (closing : block.closing ≠ .none) : ModelCalls.ofBlock (trimChars block.content) = ∅ := by
  obtain ⟨sign, spelled, visible, other⟩ := Mark.exists_char closing
  have trimmed : trimChars block.content = block.callChars ++ block.after.chars ++ [sign] := by
    have whole : block.content =
        block.before.chars ++ (block.callChars ++ block.after.chars ++ [sign]) ++ [] := by
      rw [PlainBlock.content, opening, spelled, Mark.chars]
      simp
    rw [whole]
    refine trimChars_append block.before.blank (by simp) (by simp) ?_ ?_
    · rw [List.append_assoc]
      exact fun c here => block.visible_of_head? here
    · intro d here
      rw [List.getLast?_concat] at here
      cases here
      exact visible
  refine ofBlock_of_no_call fun function _ => argumentsOf?_of_last ?_
  rw [trimmed, List.getLast?_concat]
  rintro ⟨⟩
  exact other (by decide)

/-- A block with a sign after its opening braces says nothing. -/
theorem ofBlock_of_opening {block : PlainBlock} (opening : block.opening ≠ .none) :
    ModelCalls.ofBlock (trimChars block.content) = ∅ := by
  obtain ⟨sign, spelled, visible, other⟩ := Mark.exists_char opening
  have whole : block.content = sign :: (block.before.chars ++ block.callChars ++
      block.after.chars ++ block.closing.chars) := by
    simp [PlainBlock.content, spelled]
  obtain ⟨rest, trimmed⟩ := trimChars_cons visible (block.before.chars ++ block.callChars ++
      block.after.chars ++ block.closing.chars)
  rw [whole, trimmed]
  refine ofBlock_of_no_call fun function listed => ?_
  simp only [List.mem_cons, List.not_mem_nil, or_false, not_or] at other listed
  rcases listed with rfl | rfl | rfl
  · exact argumentsOf?_of_head (by decide : "ref".toList = 'r' :: "ef".toList)
      (Ne.symm other.1)
  · exact argumentsOf?_of_head (by decide : "source".toList = 's' :: "ource".toList)
      (Ne.symm other.2.1)
  · exact argumentsOf?_of_head (by decide : "config".toList = 'c' :: "onfig".toList)
      (Ne.symm other.2.2.1)

/-- What the search for calls makes of the content of a block. -/
theorem ofBlock_content (block : PlainBlock) :
    ModelCalls.ofBlock (trimChars block.content) = block.found := by
  rw [PlainBlock.found]
  split
  next seen =>
    obtain ⟨⟨opening, closing⟩, close, settled⟩ := seen
    rw [block.trimChars_content opening closing]
    exact ofBlock_of_seen close settled
  next unseen =>
    by_cases opening : block.opening = .none
    · by_cases closing : block.closing = .none
      · rw [block.trimChars_content opening closing]
        by_cases close : block.spacing.chars = []
        · have apart : ¬ (block.comma.isSome = true → block.call.function = "config") :=
            fun settled => unseen ⟨⟨opening, closing⟩, close, settled⟩
          obtain ⟨comma, reference⟩ := Classical.not_imp.mp apart
          exact ofBlock_of_comma close comma reference
        · exact ofBlock_of_spacing close
      · exact ofBlock_of_closing opening closing
    · exact ofBlock_of_opening opening

/-! ## Braces in pages -/

theorem Literal.not_mem_brace (literal : Literal) : '\x7d' ∉ literal.chars := by
  have apart : literal.quote ≠ '\x7d' :=
    literal.of_quotes (p := (· ≠ '\x7d')) (by decide) (by decide)
  have inside : '\x7d' ∉ literal.content := fun member => (literal.inside _ member).2 rfl
  simp [Literal.chars, apart.symm, inside]

theorem Keyword.not_mem_brace (keyword : Keyword) : '\x7d' ∉ keyword.chars := by
  have before := keyword.before.not_mem (c := '\x7d') (by decide)
  have after := keyword.after.not_mem (c := '\x7d') (by decide)
  have name : '\x7d' ∉ keyword.name := by
    intro member
    have word := keyword.word _ member
    revert word
    decide
  simp [Keyword.chars, before, after, name]

theorem not_mem_brace_argument (argument : Argument) : '\x7d' ∉ argument.chars := by
  obtain ⟨keyword, item⟩ := argument
  have before := item.before.not_mem (c := '\x7d') (by decide)
  have after := item.after.not_mem (c := '\x7d') (by decide)
  have quoted : '\x7d' ∉ item.chars := by
    simp [Item.chars, before, after, item.literal.not_mem_brace]
  cases keyword with
  | none => exact quoted
  | some keyword => simp [Argument.chars, quoted, keyword.not_mem_brace]

theorem PlainBlock.not_mem_brace (block : PlainBlock) : '\x7d' ∉ block.callChars := by
  have names : ∀ name ∈ ["ref", "source", "config"], '\x7d' ∉ name.toList := by decide
  have function := names _ block.call.function_mem
  have spacing := block.spacing.not_mem (c := '\x7d') (by decide)
  have arguments : '\x7d' ∉ argumentChars block.call.arguments := by
    cases block.call.arguments with
    | nil => exact List.not_mem_nil
    | cons first rest => simp [argumentChars, not_mem_brace_argument]
  have comma : '\x7d' ∉ lastComma block.comma := by
    cases block.comma with
    | none => exact List.not_mem_nil
    | some gap => simp [lastComma, gap.not_mem (c := '\x7d') (by decide)]
  simp [PlainBlock.callChars, PlainCall.chars, function, spacing, arguments, comma]

theorem PlainBlock.undoubled_content (block : PlainBlock) : Undoubled '\x7d' block.content := by
  refine undoubled_of_not_mem ?_
  have before := block.before.not_mem (c := '\x7d') (by decide)
  have after := block.after.not_mem (c := '\x7d') (by decide)
  have mark : ∀ mark : Mark, '\x7d' ∉ mark.chars := by
    intro mark
    cases mark <;> decide
  simp [PlainBlock.content, before, after, mark, block.not_mem_brace]

/-! ## Reading pages -/

/-- A comment opens no block. -/
theorem PlainComment.undoubled_chars (comment : PlainComment) :
    Undoubled '\x7b' comment.chars := by
  have content : '\x7b' ∉ comment.content := fun member => (comment.inside _ member).2 rfl
  have front : Undoubled '\x7b' ['\x7b', '#'] := by decide
  exact (front.append (undoubled_of_not_mem content)).append (by decide)

/-- An assignment opens no block. -/
theorem PlainAssignment.undoubled_chars (assignment : PlainAssignment) :
    Undoubled '\x7b' assignment.chars := by
  have gap : ∀ gap : Gap, '\x7b' ∉ gap.chars := fun gap => gap.not_mem (by decide)
  have mark : ∀ mark : Mark, '\x7b' ∉ mark.chars := by
    intro mark
    cases mark <;> decide
  have name : '\x7b' ∉ assignment.name.name := by
    intro member
    have word := assignment.name.word _ member
    revert word
    decide
  have quote : assignment.item.literal.quote ≠ '\x7b' :=
    assignment.item.literal.of_quotes (p := (· ≠ '\x7b')) (by decide) (by decide)
  have content : '\x7b' ∉ assignment.content := by
    simp [PlainAssignment.content, Argument.chars, Keyword.chars, Item.chars, Literal.chars, gap,
      mark, name, quote.symm, assignment.braceless]
  have front : Undoubled '\x7b' ['\x7b', '%'] := by decide
  exact (front.append (undoubled_of_not_mem content)).append (by decide)

/-- The search for calls finds in a page what its blocks say in order, apart from blocks that it
does not see. -/
theorem ofText_page (page : Page) : ModelCalls.ofText page.text = page.found := by
  obtain ⟨parts, last⟩ := page
  rw [ModelCalls.ofText_eq_foldl, Page.text, String.toList_ofList]
  induction parts with
  | nil =>
    rw [Page.chars, List.flatMap_nil, List.nil_append,
      ModelCalls.blocksOf_of_undoubled (undoubled_of_not_mem last.braceless)]
    rfl
  | cons part parts ih =>
    obtain ⟨text, tag⟩ := part
    have spelled : Page.chars ⟨(text, tag) :: parts, last⟩ =
        text.chars ++ (tag.chars ++ Page.chars ⟨parts, last⟩) := by
      simp [Page.chars]
    rw [spelled, ModelCalls.blocksOf_append_of_undoubled (undoubled_of_not_mem text.braceless)]
    cases tag with
    | block block =>
      rw [PlainTag.chars, PlainBlock.chars, ModelCalls.blocksOf_block block.undoubled_content,
        List.foldl_cons, ModelCalls.foldl_addBlock, ih, ← ModelCalls.ofBlock, ofBlock_content]
      rfl
    | comment comment =>
      rw [PlainTag.chars, ModelCalls.blocksOf_append_of_undoubled comment.undoubled_chars, ih]
      rfl
    | assignment assignment =>
      rw [PlainTag.chars, ModelCalls.blocksOf_append_of_undoubled assignment.undoubled_chars, ih]
      rfl

/-- A page reads what the blocks read that the search sees. -/
theorem mem_references_found {page : Page} {reference : ModelReference} :
    reference ∈ page.found.references ↔
      ∃ block ∈ page.blocks, block.Seen ∧ reference ∈ block.call.meaning.references := by
  have here : ∀ block : PlainBlock, reference ∈ block.found.references ↔
      block.Seen ∧ reference ∈ block.call.meaning.references := by
    intro block
    by_cases seen : block.Seen
    · simp [PlainBlock.found, seen]
    · simp only [PlainBlock.found, seen, if_false, false_and, iff_false]
      exact List.not_mem_nil
  rw [Page.found]
  generalize page.blocks = blocks
  induction blocks with
  | nil =>
    simp only [List.foldr_nil, List.not_mem_nil, false_and, exists_false, iff_false]
    exact List.not_mem_nil
  | cons block blocks ih =>
    rw [List.foldr_cons, ModelCalls.references_append, List.mem_append, List.exists_mem_cons_iff]
    exact or_congr (here block) ih

end

end SqlPipeline
