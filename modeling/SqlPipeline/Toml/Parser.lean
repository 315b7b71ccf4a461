import SqlPipeline.Number.Decimal
import SqlPipeline.Text.Hex
import SqlPipeline.Text.Search
import SqlPipeline.Toml.Moment
import SqlPipeline.Toml.Section

/-!
# Reading TOML

A document consists of entries and headers, one a line. Arrays may span lines, tables in braces may
not; they nest to a depth of 79, and a key has at most as many parts. Bare keys are letters, digits,
hyphens and underscores of ASCII.
-/

namespace SqlPipeline.Toml

/-- Blanks within a line. -/
def isSpace (c : Char) : Bool := c == ' ' || c == '\t'

/-- The rest of a text after leading blanks. -/
def skipSpace (text : List Char) : List Char := text.dropWhile isSpace

/-- Whether a character may occur in a comment or literal string. -/
def isPlain (c : Char) : Bool := c == '\t' || (32 ≤ c.toNat && c.toNat != 127)

/-- The rest of a text after a line break. -/
def newline? : List Char → Option (List Char)
  | '\n' :: rest => some rest
  | '\r' :: '\n' :: rest => some rest
  | _ => none

/-- The rest of a text after blanks and a comment. -/
def skipComment (text : List Char) : List Char :=
  match skipSpace text with
  | '#' :: rest => rest.dropWhile isPlain
  | rest => rest

/-- The rest of a text after the end of a line. -/
def lineEnd? (text : List Char) : Option (List Char) :=
  match skipComment text with
  | [] => some []
  | rest => newline? rest

/-- The rest of a text after blanks, comments and line breaks. -/
def skipLines : Nat → List Char → List Char
  | 0, text => text
  | fuel + 1, text =>
    let rest := skipComment text
    match newline? rest with
    | some rest => skipLines fuel rest
    | none => rest

/-- A character given by a number of hexadecimal digits, and the rest. -/
def hexEscape? (count : Nat) (text : List Char) : Option (Char × List Char) := do
  let digits := text.take count
  if digits.length ≠ count then none
  else
    let value ← Text.hexNumber? digits
    if value.isValidChar then some (Char.ofNat value, text.drop count) else none

/-- The character of an escape after its backslash, and the rest. -/
def escape? : List Char → Option (Char × List Char)
  | 'u' :: rest => hexEscape? 4 rest
  | 'U' :: rest => hexEscape? 8 rest
  | c :: rest =>
    ([('b', '\x08'), ('t', '\t'), ('n', '\n'), ('f', '\x0c'), ('r', '\r'), ('"', '"'),
      ('\\', '\\')].lookup c).map (·, rest)
  | [] => none

/-- The characters of a basic string up to its quote, and the rest. -/
def basic? : Nat → List Char → Option (List Char × List Char)
  | 0, _ => none
  | _ + 1, [] => none
  | _ + 1, '"' :: rest => some ([], rest)
  | fuel + 1, '\\' :: rest => do
    let (c, rest) ← escape? rest
    let (chars, rest) ← basic? fuel rest
    some (c :: chars, rest)
  | fuel + 1, c :: rest => do
    if !isPlain c then none
    else
      let (chars, rest) ← basic? fuel rest
      some (c :: chars, rest)

/-- The characters of a literal string up to its quote, and the rest. -/
def literal? : List Char → Option (List Char × List Char)
  | [] => none
  | '\'' :: rest => some ([], rest)
  | c :: rest => do
    if !isPlain c then none
    else
      let (chars, rest) ← literal? rest
      some (c :: chars, rest)

/-- The quotes that belong to a string before the three that close it, and the rest. -/
def closing? (quote : Char) (text : List Char) : Option (List Char × List Char) :=
  let count := (text.takeWhile (· = quote)).length
  if count < 3 then none
  else
    let inside := min (count - 3) 2
    some (List.replicate inside quote, text.drop (inside + 3))

/-- The rest of a text after blanks and line breaks. -/
def skipBreaks : List Char → List Char
  | [] => []
  | '\r' :: '\n' :: rest => skipBreaks rest
  | c :: rest => if isSpace c || c == '\n' then skipBreaks rest else c :: rest

/-- The rest after blanks and line breaks, of which there has to be one, and it comes in the first
line. -/
def foldedLines? (text : List Char) : Option (List Char) :=
  (newline? (skipSpace text)).map skipBreaks

/-- The characters of a string of several lines up to its quotes, and the rest; `escapes` tells
whether a backslash has a meaning. -/
def lines? (quote : Char) (escapes : Bool) : Nat → List Char → Option (List Char × List Char)
  | 0, _ => none
  | _ + 1, [] => none
  | fuel + 1, c :: rest =>
    match closing? quote (c :: rest) with
    | some found => some found
    | none =>
      if c = '\\' ∧ escapes then
        match foldedLines? rest with
        | some rest => lines? quote escapes fuel rest
        | none => do
          let (c, rest) ← escape? rest
          let (chars, rest) ← lines? quote escapes fuel rest
          some (c :: chars, rest)
      else
        match newline? (c :: rest) with
        | some rest => do
          let (chars, rest) ← lines? quote escapes fuel rest
          some ('\n' :: chars, rest)
        | none => do
          if !isPlain c then none
          else
            let (chars, rest) ← lines? quote escapes fuel rest
            some (c :: chars, rest)

/-- A string of several lines after its opening quotes; a line break right there is dropped. -/
def severalLines? (quote : Char) (escapes : Bool) (text : List Char) :
    Option (List Char × List Char) :=
  lines? quote escapes (text.length + 1) ((newline? text).getD text)

/-- A string of any quotation, and the rest. -/
def string? : List Char → Option (String × List Char)
  | '"' :: '"' :: '"' :: rest => (severalLines? '"' true rest).map (.map String.ofList id)
  | '\'' :: '\'' :: '\'' :: rest => (severalLines? '\'' false rest).map (.map String.ofList id)
  | '"' :: rest => (basic? (rest.length + 1) rest).map (.map String.ofList id)
  | '\'' :: rest => (literal? rest).map (.map String.ofList id)
  | _ => none

/-- A part of a key, and the rest. -/
def simpleKey? : List Char → Option (String × List Char)
  | '"' :: rest => (basic? (rest.length + 1) rest).map (.map String.ofList id)
  | '\'' :: rest => (literal? rest).map (.map String.ofList id)
  | text =>
    let (key, rest) := text.span fun c => c.isAlphanum || c == '-' || c == '_'
    if key.isEmpty then none else some (String.ofList key, rest)

/-- A key of at most so many parts with points between them, and the rest after blanks. -/
def key? : Nat → List Char → Option (List String × List Char)
  | 0, _ => none
  | fuel + 1, text => do
    let (part, rest) ← simpleKey? (skipSpace text)
    match skipSpace rest with
    | '.' :: rest => do
      let (parts, rest) ← key? fuel rest
      some (part :: parts, rest)
    | rest => some ([part], rest)

/-- Digits with single underscores between them, and the rest. -/
def moreDigits (isDigit : Char → Bool) : List Char → List Char × List Char
  | '_' :: c :: rest =>
    if isDigit c then
      let (digits, rest) := moreDigits isDigit rest
      (c :: digits, rest)
    else ([], '_' :: c :: rest)
  | c :: rest =>
    if isDigit c then
      let (digits, rest) := moreDigits isDigit rest
      (c :: digits, rest)
    else ([], c :: rest)
  | [] => ([], [])

/-- At least one digit, with single underscores between them, and the rest. -/
def digits? (isDigit : Char → Bool) : List Char → Option (List Char × List Char)
  | c :: rest =>
    if isDigit c then
      let (digits, rest) := moreDigits isDigit rest
      some (c :: digits, rest)
    else none
  | [] => none

/-- A sign, whether it is a minus, and the rest. -/
def sign : List Char → Bool × List Char
  | '-' :: rest => (true, rest)
  | '+' :: rest => (false, rest)
  | text => (false, text)

/-- The digits of a whole number without leading zeros, and the rest. -/
def whole? : List Char → Option (List Char × List Char)
  | '0' :: rest => some (['0'], rest)
  | text => digits? Char.isDigit text

/-- A power of ten, and the rest. -/
def exponent? : List Char → Option (Int × List Char)
  | mark :: rest =>
    if mark = 'e' ∨ mark = 'E' then do
      let (negative, rest) := sign rest
      let (digits, rest) ← digits? Char.isDigit rest
      let power : Int := (ofDecimalDigits digits : Nat)
      some (if negative then -power else power, rest)
    else none
  | [] => none

/-- A number with a fraction or an exponent, and the rest. A number too large is infinite if it is
negative, and otherwise refused. -/
def real? (text : List Char) : Option (Toml × List Char) := do
  let (negative, rest) := sign text
  match rest with
  | 'i' :: 'n' :: 'f' :: rest => some (real (.infinite negative), rest)
  | 'n' :: 'a' :: 'n' :: rest => some (real .notANumber, rest)
  | _ => do
    let (whole, rest) ← whole? rest
    let (fraction, power, rest) ← match rest with
      | '.' :: after => do
        let (fraction, rest) ← digits? Char.isDigit after
        match exponent? rest with
        | some (power, rest) => some (fraction, power, rest)
        | none => some (fraction, 0, rest)
      | _ => do
        let (power, rest) ← exponent? rest
        some ([], power, rest)
    let digits := ofDecimalDigits (whole ++ fraction)
    let value := Binary64.ofDecimal negative digits (power - fraction.length)
    if value = .infinite false then none else some (real value, rest)

/-- The value of digits in a base. -/
def numberIn (base : Nat) (digits : List Char) : Nat :=
  digits.foldl (fun value digit => base * value + (Text.hexValue? digit).getD 0) 0

/-- An integer in a base with a mark of its own, and the rest. -/
def basedInteger? (base : Nat) (text : List Char) : Option (Toml × List Char) := do
  let isDigit := fun c => match Text.hexValue? c with
    | some value => value < base
    | none => false
  let (digits, rest) ← digits? isDigit text
  let value := numberIn base digits
  if value < Nat.pow 2 63 then some (integer value, rest) else none

/-- An integer of 64 bits, and the rest. -/
def integer? : List Char → Option (Toml × List Char)
  | '0' :: 'x' :: rest => basedInteger? 16 rest
  | '0' :: 'o' :: rest => basedInteger? 8 rest
  | '0' :: 'b' :: rest => basedInteger? 2 rest
  | text => do
    let (negative, rest) := sign text
    let (digits, rest) ← whole? rest
    let value : Int := (ofDecimalDigits digits : Nat)
    let value := if negative then -value else value
    if -(Nat.pow 2 63 : Int) ≤ value ∧ value < Nat.pow 2 63 then some (integer value, rest)
    else none

/-- A date, a time or a number, and the rest. -/
def number? (text : List Char) : Option (Toml × List Char) :=
  ((moment? text).map fun (text, rest) => (moment text, rest)).or ((real? text).or (integer? text))

mutual

/-- A value nested at most `depth` deep, and the rest. -/
def value? (depth : Nat) : Nat → List Char → Option (Toml × List Char)
  | 0, _ => none
  | fuel + 1, text =>
    match text with
    | '"' :: _ => (string? text).map (.map string id)
    | '\'' :: _ => (string? text).map (.map string id)
    | '[' :: rest =>
      match depth with
      | 0 => none
      | depth + 1 => (items? depth fuel rest).map (.map array id)
    | '\x7b' :: rest =>
      match depth with
      | 0 => none
      | depth + 1 => do
        let (entries, rest) ← match skipSpace rest with
          | '\x7d' :: rest => some ([], rest)
          | rest => entries? depth fuel rest
        some (← Draft.ofEntries? entries, rest)
    | 't' :: rest => (Text.after? ['r', 'u', 'e'] rest).map (boolean true, ·)
    | 'f' :: rest => (Text.after? ['a', 'l', 's', 'e'] rest).map (boolean false, ·)
    | _ => number? text

/-- The items of an array up to its closing bracket. -/
def items? (depth : Nat) : Nat → List Char → Option (List Toml × List Char)
  | 0, _ => none
  | fuel + 1, text =>
    match skipLines (text.length + 1) text with
    | ']' :: rest => some ([], rest)
    | rest => do
      let (item, rest) ← value? depth fuel rest
      match skipLines (rest.length + 1) rest with
      | ',' :: rest => do
        let (items, rest) ← items? depth fuel rest
        some (item :: items, rest)
      | ']' :: rest => some ([item], rest)
      | _ => none

/-- The entries of a table in braces up to its closing brace. -/
def entries? (depth : Nat) : Nat → List Char → Option (List (List String × Toml) × List Char)
  | 0, _ => none
  | fuel + 1, text => do
    let (key, rest) ← key? 79 text
    match rest with
    | '=' :: rest => do
      let (value, rest) ← value? depth fuel (skipSpace rest)
      match skipSpace rest with
      | ',' :: rest => do
        let (entries, rest) ← entries? depth fuel rest
        some ((key, value) :: entries, rest)
      | '\x7d' :: rest => some ([(key, value)], rest)
      | _ => none
    | _ => none

end

/-- A line that is neither empty nor a comment, and the rest after it. -/
def line? (text : List Char) : Option (Line × List Char) :=
  match text with
  | '[' :: '[' :: rest => do
    let (path, rest) ← key? 79 rest
    match rest with
    | ']' :: ']' :: rest => some (.itemHeader path, rest)
    | _ => none
  | '[' :: rest => do
    let (path, rest) ← key? 79 rest
    match rest with
    | ']' :: rest => some (.header path, rest)
    | _ => none
  | _ => do
    let (path, rest) ← key? 79 text
    match rest with
    | '=' :: rest => do
      let (value, rest) ← value? 79 (2 * rest.length + 2) (skipSpace rest)
      some (.entry path value, rest)
    | _ => none

/-- The lines of a document. -/
def documentLines? : Nat → List Char → Option (List Line)
  | 0, _ => none
  | fuel + 1, text =>
    match skipLines (text.length + 1) text with
    | [] => some []
    | rest => do
      let (line, rest) ← line? rest
      let rest ← lineEnd? rest
      let lines ← documentLines? fuel rest
      some (line :: lines)

/-- The table that a text denotes; a mark of byte order at its start is passed over. -/
def parse? (text : String) : Option Toml := do
  let chars := match text.toList with
    | '\uFEFF' :: rest => rest
    | chars => chars
  let lines ← documentLines? (chars.length + 1) chars
  let entries ← Draft.assemble? [] [] lines
  some (.table (Draft.entriesToToml entries))

end SqlPipeline.Toml
