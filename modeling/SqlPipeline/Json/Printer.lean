import SqlPipeline.Json.Value
import SqlPipeline.Number.Decimal
import SqlPipeline.Text.Hex

/-!
# Writing JSON

Values are written either on one line or with two blanks of indentation a level. Strings escape the
quote, the backslash and control characters; everything else stands as it is.
-/

namespace SqlPipeline.Json

/-- Floating-point numbers have a point from `1e-5` up to below `1e16`, and otherwise an exponent
with its sign. -/
def floatLayout : FloatLayout := ⟨-5, 15, true⟩

/-- The text of an integer. -/
def intChars (n : Int) : List Char :=
  (if n < 0 then ['-'] else []) ++ decimalDigits n.natAbs

/-- The text of a number; one that is not finite has none and is written as null. -/
def numberChars : Number → List Char
  | .integer n => intChars n
  | .real value => if value.isFinite then floatLayout.text value else ['n', 'u', 'l', 'l']

/-- One character inside a string. -/
def stringChar (c : Char) : List Char :=
  if c = '"' then ['\\', '"']
  else if c = '\\' then ['\\', '\\']
  else if c.toNat = 8 then ['\\', 'b']
  else if c.toNat = 9 then ['\\', 't']
  else if c.toNat = 10 then ['\\', 'n']
  else if c.toNat = 12 then ['\\', 'f']
  else if c.toNat = 13 then ['\\', 'r']
  else if c.toNat < 32 then ['\\', 'u', '0', '0'] ++ Text.byteDigits (UInt8.ofNat c.toNat)
  else [c]

/-- A quoted string. -/
def stringChars (text : String) : List Char :=
  ['"'] ++ text.toList.flatMap stringChar ++ ['"']

/-- A line break followed by the indentation of a level. -/
def newline (level : Nat) : List Char := '\n' :: List.replicate (2 * level) ' '

mutual

/-- A value on several lines, at an indentation level. -/
def prettyChars (level : Nat) : Json → List Char
  | null => ['n', 'u', 'l', 'l']
  | bool true => ['t', 'r', 'u', 'e']
  | bool false => ['f', 'a', 'l', 's', 'e']
  | number value => numberChars value
  | string text => stringChars text
  | array [] => ['[', ']']
  | array (item :: items) =>
    ['['] ++ newline (level + 1) ++ prettyChars (level + 1) item
      ++ prettyItems (level + 1) items ++ newline level ++ [']']
  | object [] => ['\x7b', '\x7d']
  | object ((key, value) :: members) =>
    ['\x7b'] ++ newline (level + 1) ++ stringChars key ++ [':', ' ']
      ++ prettyChars (level + 1) value ++ prettyMembers (level + 1) members
      ++ newline level ++ ['\x7d']

/-- The further items of an array, each after a comma and a line break. -/
def prettyItems (level : Nat) : List Json → List Char
  | [] => []
  | item :: items => [','] ++ newline level ++ prettyChars level item ++ prettyItems level items

/-- The further members of an object, each after a comma and a line break. -/
def prettyMembers (level : Nat) : List (String × Json) → List Char
  | [] => []
  | (key, value) :: members =>
    [','] ++ newline level ++ stringChars key ++ [':', ' '] ++ prettyChars level value
      ++ prettyMembers level members

end

mutual

/-- A value on one line, without blanks. -/
def compactChars : Json → List Char
  | null => ['n', 'u', 'l', 'l']
  | bool true => ['t', 'r', 'u', 'e']
  | bool false => ['f', 'a', 'l', 's', 'e']
  | number value => numberChars value
  | string text => stringChars text
  | array [] => ['[', ']']
  | array (item :: items) => ['['] ++ compactChars item ++ compactItems items ++ [']']
  | object [] => ['\x7b', '\x7d']
  | object ((key, value) :: members) =>
    ['\x7b'] ++ stringChars key ++ [':'] ++ compactChars value ++ compactMembers members
      ++ ['\x7d']

/-- The further items of an array, each after a comma. -/
def compactItems : List Json → List Char
  | [] => []
  | item :: items => [','] ++ compactChars item ++ compactItems items

/-- The further members of an object, each after a comma. -/
def compactMembers : List (String × Json) → List Char
  | [] => []
  | (key, value) :: members =>
    [','] ++ stringChars key ++ [':'] ++ compactChars value ++ compactMembers members

end

/-- The text of a value on several lines. -/
def pretty (value : Json) : String := String.ofList (prettyChars 0 value)

/-- The text of a value on one line. -/
def compact (value : Json) : String := String.ofList (compactChars value)

end SqlPipeline.Json
