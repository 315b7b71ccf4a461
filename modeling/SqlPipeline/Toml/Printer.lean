import SqlPipeline.Number.Decimal
import SqlPipeline.Text.Search
import SqlPipeline.Toml.Value

/-!
# Writing TOML

A table lists its plain entries first and then its subtables, each under a header of its own; a list
of tables has a header for each. A header is left out when its table only has subtables. Elsewhere a
table stands in braces, and an array of several items has one item a line. A text is written in the
plainest of the four quotations that needs no escape.
-/

namespace SqlPipeline.Toml

/-- A number always has a point and never an exponent. -/
def floatLayout : FloatLayout := ⟨-400, 400, false⟩

/-- Four upper-case hexadecimal digits. -/
def fourDigits (n : Nat) : List Char :=
  let digits := (Nat.toDigits 16 n).map Char.toUpper
  List.replicate (4 - digits.length) '0' ++ digits

/-- Whether a character is a control character other than a tab. -/
def isControl (c : Char) : Bool := (c.toNat < 32 && c != '\t') || c.toNat == 127

/-- One character of a basic string, where `quotes` double quotes stand before it. -/
def escaped (multiline : Bool) (quotes : Nat) (c : Char) : List Char :=
  if c = '"' then if multiline && quotes < 2 then ['"'] else ['\\', '"']
  else if c = '\\' then ['\\', '\\']
  else if c = '\n' then if multiline then ['\n'] else ['\\', 'n']
  else if c.toNat = 8 then ['\\', 'b']
  else if c = '\t' then ['\\', 't']
  else if c.toNat = 12 then ['\\', 'f']
  else if c = '\r' then ['\\', 'r']
  else if isControl c then ['\\', 'u'] ++ fourDigits c.toNat
  else [c]

/-- The characters of a basic string, after a number of double quotes that stand as they are. -/
def escapedChars (multiline : Bool) (quotes : Nat) : List Char → List Char
  | [] => []
  | c :: chars =>
    let text := escaped multiline quotes c
    text ++ escapedChars multiline (if text = ['"'] then quotes + 1 else 0) chars

/-- Whether a character occurs more than `count` times in a row. -/
def repeats (c : Char) (count : Nat) (chars : List Char) : Bool :=
  Text.occursIn (List.replicate (count + 1) c) chars

/-- A string in the plainest quotation: basic, literal, basic on several lines, literal on several
lines, and otherwise basic with escapes. -/
def stringText (text : String) : List Char :=
  let chars := text.toList
  let newline := chars.contains '\n'
  let controls := chars.any fun c => isControl c && c != '\n'
  let lineStart := if newline then ['\n'] else []
  let basic := ['"'] ++ escapedChars false 0 chars ++ ['"']
  let basicLines := ['"', '"', '"'] ++ lineStart ++ escapedChars true 0 chars ++ ['"', '"', '"']
  if !controls && !chars.contains '\\' && !chars.contains '"' && !newline then basic
  else if !controls && !chars.contains '\'' && !newline then ['\''] ++ chars ++ ['\'']
  else if !controls && !chars.contains '\\' && !repeats '"' 2 chars then basicLines
  else if !controls && !repeats '\'' 2 chars then
    ['\'', '\'', '\''] ++ lineStart ++ chars ++ ['\'', '\'', '\'']
  else if newline then basicLines
  else basic

/-- Whether a character may stand in a key without quotes. -/
def isBareKeyChar (c : Char) : Bool := c.isAlphanum || c == '-' || c == '_'

/-- A key: bare if it can be, in quotes otherwise. -/
def keyText (key : String) : List Char :=
  let chars := key.toList
  let controls := chars.any isControl
  if !chars.isEmpty && chars.all isBareKeyChar then chars
  else if !controls && !chars.contains '\\' && !chars.contains '"' then
    ['"'] ++ escapedChars false 0 chars ++ ['"']
  else if !controls && !chars.contains '\'' then ['\''] ++ chars ++ ['\'']
  else ['"'] ++ escapedChars false 0 chars ++ ['"']

/-- The text of an integer. -/
def integerText (n : Int) : List Char :=
  (if n < 0 then ['-'] else []) ++ decimalDigits n.natAbs

/-- The text of a floating-point number. -/
def realText : Binary64 → List Char
  | .notANumber => ['n', 'a', 'n']
  | x => floatLayout.text x

mutual

/-- A value after its key. -/
def valueText : Toml → List Char
  | string value => stringText value
  | integer value => integerText value
  | real value => realText value
  | boolean true => ['t', 'r', 'u', 'e']
  | boolean false => ['f', 'a', 'l', 's', 'e']
  | moment text => text.toList
  | array [] => ['[', ']']
  | array [item] => ['['] ++ valueText item ++ [']']
  | array items => ['['] ++ itemTexts items ++ ['\n', ']']
  | table [] => ['\x7b', '\x7d']
  | table ((key, value) :: entries) =>
    ['\x7b', ' '] ++ keyText key ++ [' ', '=', ' '] ++ valueText value ++ entryTexts entries
      ++ [' ', '\x7d']

/-- Items on a line each. -/
def itemTexts : List Toml → List Char
  | [] => []
  | item :: items => ['\n', ' ', ' ', ' ', ' '] ++ valueText item ++ [','] ++ itemTexts items

/-- The further entries of a table in braces. -/
def entryTexts : List (String × Toml) → List Char
  | [] => []
  | (key, value) :: entries =>
    [',', ' '] ++ keyText key ++ [' ', '=', ' '] ++ valueText value ++ entryTexts entries

end

/-- Whether a value has headers of its own: a table, or a list of tables only. -/
def isSection : Toml → Bool
  | table _ => true
  | array [] => false
  | array items => items.all fun
    | table _ => true
    | _ => false
  | _ => false

/-- The path of keys in a header. -/
def pathText (path : List String) : List Char := ['.'].intercalate (path.map keyText)

/-- The plain entries of a table, a line each. -/
def plainLines (entries : List (String × Toml)) : List Char :=
  (entries.filter fun entry => !entry.2.isSection).flatMap fun entry =>
    keyText entry.1 ++ [' ', '=', ' '] ++ valueText entry.2 ++ ['\n']

/-- The lines of a section with its header. -/
def headed (header : List Char) (body : List Char) : List Char :=
  ['\n'] ++ header ++ ['\n'] ++ body

mutual

/-- The sections of a value at a path, each after an empty line. -/
def sections (path : List String) : Toml → List Char
  | table entries =>
    let header := ['['] ++ pathText path ++ [']']
    let lines := plainLines entries
    (if lines.isEmpty && !entries.isEmpty then [] else headed header lines)
      ++ entrySections path entries
  | array items => if isSection (array items) then itemSections path items else []
  | _ => []

/-- The sections of the entries of a table at a path. -/
def entrySections (path : List String) : List (String × Toml) → List Char
  | [] => []
  | (key, value) :: entries => sections (path ++ [key]) value ++ entrySections path entries

/-- The sections of a list of tables at a path. -/
def itemSections (path : List String) : List Toml → List Char
  | [] => []
  | table entries :: items =>
    headed (['[', '['] ++ pathText path ++ [']', ']']) (plainLines entries)
      ++ entrySections path entries ++ itemSections path items
  | _ :: items => itemSections path items

end

/-- The text of a document. -/
def print (document : List (String × Toml)) : String :=
  let lines := plainLines document
  let sections := entrySections [] document
  String.ofList (if lines.isEmpty then sections.drop 1 else lines ++ sections)

end SqlPipeline.Toml
