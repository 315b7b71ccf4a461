import SqlPipeline.Number.Decimal
import SqlPipeline.Text.Blank
import SqlPipeline.Text.Hex
import SqlPipeline.Text.Search

/-!
# Tokens of a template

A template is plain text with expressions in double braces, statements in braces with percent signs
and comments in braces with number signs. A minus sign inside a tag removes the blanks beside the
tag, and one line break at the end of the template does not count. The text of a raw section is
plain whatever it holds.

Reading stops at the first text that is no token; the token list then ends with a `fault`.
-/

namespace SqlPipeline.Template

/-- A token of the template language. -/
inductive Token where
  /-- Text that is rendered as it stands. -/
  | data (text : String)
  | variableStart
  | variableEnd
  | blockStart
  | blockEnd
  | ident (name : String)
  | text (value : String)
  | int (value : Nat)
  | real (value : Binary64)
  /-- An operator or a bracket. -/
  | symbol (text : String)
  /-- Text that is no token, and the line of the fault if it has one of its own. -/
  | fault (detail : String) (line : Option Nat)
deriving DecidableEq

/-- A token and the line where it begins. -/
abbrev LocatedToken := Token × Nat

/-- What is left of a template, and the line where it begins. -/
structure Cursor where
  rest : List Char
  line : Nat

namespace Cursor

/-- Pass over a number of characters. -/
def advance (cursor : Cursor) (count : Nat) : Cursor :=
  ⟨cursor.rest.drop count, cursor.line + (cursor.rest.take count).count '\n'⟩

/-- Pass over leading characters that satisfy a test. -/
def skipWhile (cursor : Cursor) (p : Char → Bool) : Cursor :=
  cursor.advance (cursor.rest.takeWhile p).length

/-- A token that ends reading here. -/
def stop (cursor : Cursor) (detail : String) : List LocatedToken :=
  [(.fault detail cursor.line, cursor.line)]

/-- The end of the template. -/
def atEnd (cursor : Cursor) : Cursor := cursor.advance cursor.rest.length

end Cursor

/-- What a sign beside a tag does with the blanks there. -/
inductive BlankControl where
  | keep
  | remove
deriving DecidableEq

/-- The control that a character denotes, and how many characters it takes. -/
def controlOf : Option Char → BlankControl × Nat
  | some '-' => (.remove, 1)
  | some '+' => (.keep, 1)
  | _ => (.keep, 0)

/-- The plain text before the first tag, and the tag's kind and the text after its two opening
characters. -/
def splitAtTag : List Char → List Char × Option (Char × List Char)
  | [] => ([], none)
  | ['\x7b'] => (['\x7b'], none)
  | '\x7b' :: kind :: rest =>
    if kind = '\x7b' ∨ kind = '%' ∨ kind = '#' then ([], some (kind, rest))
    else
      let (before, tag) := splitAtTag (kind :: rest)
      ('\x7b' :: before, tag)
  | c :: rest =>
    let (before, tag) := splitAtTag rest
    (c :: before, tag)

/-- ASCII blanks, which separate the parts of an expression. -/
def isGap (c : Char) : Bool :=
  c == ' ' || c == '\t' || c == '\n' || c == '\r' || c == '\x0c'

/-- If a statement tag holds just a name, what follows the tag, and the control at its end. -/
def bareTag? (name : List Char) (text : List Char) : Option (BlankControl × List Char) := do
  let rest ← Text.after? name (text.dropWhile isGap)
  let rest := rest.dropWhile isGap
  let (control, width) := controlOf rest.head?
  let rest ← Text.after? ['%', '\x7d'] (rest.drop width)
  some (control, rest)

/-- The text of a raw section up to its closing tag, the controls before and after that tag, and
what follows it. -/
def rawSection? : List Char → Option (List Char × BlankControl × BlankControl × List Char)
  | [] => none
  | c :: rest =>
    let closing := do
      let inside ← Text.after? ['%'] rest
      if c ≠ '\x7b' then none
      let (before, width) := controlOf inside.head?
      let (after, rest) ← bareTag? "endraw".toList (inside.drop width)
      some ([], before, after, rest)
    match closing with
    | some found => some found
    | none => (rawSection? rest).map fun (text, controls) => (c :: text, controls)

/-- The character that a single-letter escape denotes. -/
def simpleEscape? (c : Char) : Option Char :=
  [('"', '"'), ('\\', '\\'), ('/', '/'), ('\'', '\''), ('b', '\x08'), ('f', '\x0c'), ('n', '\n'),
    ('r', '\r'), ('t', '\t')].lookup c

/-- The value of a number of hexadecimal digits, and the rest. A plus sign may stand before the
digits in the place of one. -/
def hexDigits? (width : Nat) (text : List Char) : Option (Nat × List Char) :=
  let digits := match text with
    | '+' :: _ => (text.take width).drop 1
    | _ => text.take width
  if text.length < width ∨ digits.isEmpty then none
  else (Text.hexNumber? digits).map (·, text.drop width)

/-- Whether a character is an octal digit. -/
def isOctal (c : Char) : Bool := '0' ≤ c && c ≤ '7'

/-- The character of one to three octal digits, if it is one of the first 256, and the rest. -/
def octalEscape? (text : List Char) : Option (Char × List Char) :=
  let digits := (text.take 3).takeWhile isOctal
  let value := digits.foldl (fun value digit => 8 * value + (digit.toNat - 48)) 0
  if value < 256 then some (Char.ofNat value, text.drop digits.length) else none

/-- Resolve the escapes of a string literal. A backslash before a character that is no escape stands
for itself. -/
def unescape? : Nat → List Char → Option (List Char)
  | 0, _ => none
  | _ + 1, [] => some []
  | _ + 1, ['\\'] => none
  | fuel + 1, '\\' :: 'u' :: rest => do
    let (c, rest) ← Text.unicodeEscape? (hexDigits? 4) rest
    (unescape? fuel rest).map (c :: ·)
  | fuel + 1, '\\' :: 'x' :: rest => do
    let (value, rest) ← hexDigits? 2 rest
    (unescape? fuel rest).map (Char.ofNat value :: ·)
  | fuel + 1, '\\' :: escape :: rest =>
    if isOctal escape then do
      let (c, rest) ← octalEscape? (escape :: rest)
      (unescape? fuel rest).map (c :: ·)
    else match simpleEscape? escape with
      | some c => (unescape? fuel rest).map (c :: ·)
      | none => (unescape? fuel rest).map ('\\' :: escape :: ·)
  | fuel + 1, c :: rest => (unescape? fuel rest).map (c :: ·)

/-- The characters of a string literal up to its delimiter, which a backslash can escape. -/
def literalBody? (delimiter : Char) : List Char → Option (List Char × List Char)
  | [] => none
  | '\\' :: c :: rest =>
    (literalBody? delimiter rest).map fun (body, after) => ('\\' :: c :: body, after)
  | c :: rest =>
    if c = delimiter then some ([], rest)
    else (literalBody? delimiter rest).map fun (body, after) => (c :: body, after)

/-- Why the inside of a tag begins with no token. -/
inductive NoToken where
  /-- A text that is not closed, which is noticed at the end of the template. -/
  | openLiteral
  /-- A text with a wrong escape, which is noticed without a line. -/
  | wrongEscape
  /-- Any other reason, which is noticed at once. -/
  | other (detail : String)

/-- The token of a string literal and how many characters it takes. -/
def literal? (delimiter : Char) (text : List Char) : Except NoToken (Token × Nat) :=
  match literalBody? delimiter (text.drop 1) with
  | none => .error .openLiteral
  | some (body, _) =>
    match unescape? (body.length + 1) body with
    | some chars => .ok (.text (String.ofList chars), body.length + 2)
    | none => .error .wrongEscape

/-- The digits of a text in a base, if all of them belong to it. -/
def ofDigits? (base : Nat) (digits : List Char) : Option Nat :=
  if digits.isEmpty then none
  else digits.foldlM (fun value c =>
    (Text.hexValue? c).bind fun digit =>
      if digit < base then some (base * value + digit) else none) 0

/-- The part of a number that is being read. -/
inductive NumberPart where
  | whole
  | fraction
  /-- After the mark of an exponent, where a sign may follow. -/
  | mark
  | exponent
deriving DecidableEq

/-- The part that a character of a number belongs to or leads to, if it belongs to the number.
Underscores may stand anywhere after the first digit. -/
def NumberPart.next? (part : NumberPart) (c : Char) : Option NumberPart :=
  if c = '_' then some part
  else if c.isDigit then some (if part = .mark then .exponent else part)
  else if c = '.' ∧ part = .whole then some .fraction
  else if (c = 'e' ∨ c = 'E') ∧ (part = .whole ∨ part = .fraction) then some .mark
  else if (c = '+' ∨ c = '-') ∧ part = .mark then some .exponent
  else none

/-- The characters of a number, and the part that it ends in. -/
def numberSpan : NumberPart → List Char → List Char × NumberPart
  | part, [] => ([], part)
  | part, c :: rest =>
    match part.next? c with
    | none => ([], part)
    | some next =>
      let (chars, last) := numberSpan next rest
      (c :: chars, last)

/-- The value of a number with a point or an exponent. -/
def realOf? (chars : List Char) : Option Binary64 := do
  let (significand, exponent) := chars.span fun c => c != 'e' && c != 'E'
  let (whole, fraction) := significand.span (· ≠ '.')
  let power ← match exponent.drop 1 with
    | '-' :: digits => (ofDigits? 10 digits).map fun n => -(n : Int)
    | '+' :: digits => (ofDigits? 10 digits).map fun n => (n : Int)
    | [] => if exponent.isEmpty then some 0 else none
    | digits => (ofDigits? 10 digits).map fun n => (n : Int)
  let fraction := fraction.drop 1
  some (Binary64.ofDecimal false (ofDecimalDigits (whole ++ fraction)) (power - fraction.length))

/-- The token of an integer, which has at most 128 bits. -/
def integerToken (base : Nat) (digits : List Char) : Except NoToken Token :=
  match ofDigits? base digits with
  | some n => if n < Nat.pow 2 128 then .ok (.int n)
    else .error (.other "invalid integer (too large)")
  | none => .error (.other "invalid integer")

/-- The base of a number by its first two characters. -/
def baseOf (text : List Char) : Nat :=
  match text with
  | '0' :: mark :: _ =>
    if mark = 'x' ∨ mark = 'X' then 16
    else if mark = 'o' ∨ mark = 'O' then 8
    else if mark = 'b' ∨ mark = 'B' then 2
    else 10
  | _ => 10

/-- The token of a number and how many characters it takes. -/
def numberToken (text : List Char) : Except NoToken (Token × Nat) := do
  let base := baseOf text
  let (chars, part) := if base = 10 then numberSpan .whole text
    else ((text.drop 2).takeWhile fun c =>
      (Text.hexValue? c).any (· < max base 10) || c == '_', NumberPart.whole)
  let digits := chars.filter (· ≠ '_')
  if chars.getLast? == some '_' then
    .error (.other "an underscore may not stand at the end of a number")
  else if base ≠ 10 then do .ok (← integerToken base digits, chars.length + 2)
  else if part = .whole then do .ok (← integerToken 10 digits, chars.length)
  else match realOf? digits with
    | some x => .ok (.real x, chars.length)
    | none => .error (.other "invalid float")

/-- Whether a character can begin a name. -/
def startsName (c : Char) : Bool := c.isAlpha || c == '_'

/-- Whether a character can continue a name. -/
def continuesName (c : Char) : Bool := c.isAlphanum || c == '_'

/-- Operators of two characters. -/
def longSymbols : List String := ["//", "**", "==", "!=", ">=", "<="]

/-- Operators and brackets of one character. -/
def shortSymbols : List Char :=
  ['+', '-', '*', '/', '%', '!', '.', ',', ':', '~', '|', '=', '>', '<', '(', ')', '[', ']',
    '\x7b', '\x7d']

/-- The first token of the inside of a tag and how many characters it takes. -/
def insideToken (text : List Char) : Except NoToken (Token × Nat) :=
  match text with
  | [] => .error (.other "unexpected end of input")
  | c :: _ =>
    let pair := String.ofList (text.take 2)
    if longSymbols.contains pair then .ok (.symbol pair, 2)
    else if shortSymbols.contains c then .ok (.symbol (String.singleton c), 1)
    else if c = '\'' ∨ c = '"' then literal? c text
    else if c.isDigit then numberToken text
    else if startsName c then
      let name := text.takeWhile continuesName
      .ok (.ident (String.ofList name), name.length)
    else .error (.other "unexpected character")

/-- How a token changes the number of open brackets. -/
def bracketChange : Token → Int
  | .symbol s =>
    if ["(", "[", "\x7b"].contains s then 1 else if [")", "]", "\x7d"].contains s then -1 else 0
  | _ => 0

/-- Where reading goes on: in plain text, or inside a tag with its two closing characters and the
number of brackets open in it. -/
inductive Place where
  | plain (trimLeading : Bool)
  | inside (closing : List Char) (openBrackets : Int)

/-- The end of a tag at the front of a text: the control there and how many characters it takes. -/
def tagEnd? (closing text : List Char) : Option (BlankControl × Nat) :=
  let (control, width) := controlOf text.head?
  if closing.isPrefixOf (text.drop width) then some (control, width + 2) else none

/-- Read plain text up to the next tag: its token if it is not empty, and the tag that follows with
the text after its opening. -/
def plainText (cursor : Cursor) : List LocatedToken × Option (Char × Cursor) :=
  let (before, tag) := splitAtTag cursor.rest
  let control := match tag with
    | some (_, rest) => (controlOf rest.head?).1
    | none => .keep
  let kept := if control = .remove then Text.dropEndWhile Text.isBlank before else before
  let tokens := if kept.isEmpty then [] else [(.data (String.ofList kept), cursor.line)]
  (tokens, tag.map fun (kind, _) => (kind, cursor.advance (before.length + 2)))

/-- Read the tokens of a template from a cursor on. -/
def readTokens : Nat → Place → Cursor → List LocatedToken
  | 0, _, cursor => cursor.stop "unexpected end of input"
  | fuel + 1, .plain trimLeading, cursor =>
    let cursor := if trimLeading then cursor.skipWhile Text.isBlank else cursor
    let (tokens, tag) := plainText cursor
    tokens ++ match tag with
      | none => []
      | some ('#', inside) =>
        let text := inside.advance (controlOf inside.rest.head?).2
        match Text.splitFirst? ['#', '\x7d'] text.rest with
        | none => inside.atEnd.stop "unexpected end of comment"
        | some (comment, _) =>
          let trim := comment.getLast? == some '-'
          readTokens fuel (.plain trim) (text.advance (comment.length + 2))
      | some ('%', inside) =>
        let width := (controlOf inside.rest.head?).2
        match bareTag? "raw".toList (inside.rest.drop width) with
        | some (control, rest) =>
          let start := inside.advance (inside.rest.length - rest.length)
          match rawSection? rest with
          | none => start.atEnd.stop "unexpected end of raw block"
          | some (text, before, after, rest') =>
            let text := if control = .remove then text.dropWhile Text.isBlank else text
            let text := if before = .remove then Text.dropEndWhile Text.isBlank text else text
            (.data (String.ofList text), start.line)
              :: readTokens fuel (.plain (after == .remove))
                (start.advance (rest.length - rest'.length))
        | none =>
          (.blockStart, inside.line)
            :: readTokens fuel (.inside ['%', '\x7d'] 0) (inside.advance width)
      | some (_, inside) =>
        let width := (controlOf inside.rest.head?).2
        (.variableStart, inside.line)
          :: readTokens fuel (.inside ['\x7d', '\x7d'] 0) (inside.advance width)
  | fuel + 1, .inside closing openBrackets, cursor =>
    let cursor := cursor.skipWhile isGap
    if cursor.rest.isEmpty then []
    else
      let ending := if openBrackets = 0 then tagEnd? closing cursor.rest else none
      match ending with
      | some (control, width) =>
        (if closing == ['%', '\x7d'] then .blockEnd else .variableEnd, cursor.line)
          :: readTokens fuel (.plain (control == .remove)) (cursor.advance width)
      | none =>
        match insideToken cursor.rest with
        | .error .openLiteral => cursor.atEnd.stop "unexpected end of string"
        | .error .wrongEscape => [(.fault "bad string escape" none, cursor.line)]
        | .error (.other detail) => cursor.stop detail
        | .ok (token, width) =>
          (token, cursor.line)
            :: readTokens fuel (.inside closing (openBrackets + bracketChange token))
              (cursor.advance width)

/-- A template without the one line break at its end. -/
def withoutFinalNewline (source : List Char) : List Char :=
  let drop := fun (c : Char) (chars : List Char) =>
    if chars.getLast? == some c then chars.dropLast else chars
  drop '\r' (drop '\n' source)

/-- The tokens of a template. -/
def tokens (source : String) : List LocatedToken :=
  let chars := withoutFinalNewline source.toList
  readTokens (2 * chars.length + 2) (.plain false) ⟨chars, 1⟩

end SqlPipeline.Template
