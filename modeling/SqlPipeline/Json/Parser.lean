import SqlPipeline.Json.Value
import SqlPipeline.Number.Decimal
import SqlPipeline.Text.Hex
import SqlPipeline.Text.Search

/-!
# Reading JSON

The reader accepts exactly one value with blanks around it. A number without point and exponent that
fits 64 bits is an integer. Any other number is read as one natural number of at most 64 bits, which
is rounded and then scaled by a rounded power of ten; digits that do not fit count only for the
power of ten.

A record may have fields that its reader does not know. In them everything is accepted that is
written well, such as half a surrogate pair or a number beyond all others, though it denotes
nothing: `read?` leaves `unreadable` in its place, and `parse?` refuses it.
-/

namespace SqlPipeline.Json

/-- Blanks between the parts of a value. -/
def isSpace (c : Char) : Bool := c == ' ' || c == '\n' || c == '\t' || c == '\r'

/-- The rest of a text after leading blanks. -/
def skipSpace (text : List Char) : List Char := text.dropWhile isSpace

/-- The character at the front of the rest of a string, or nothing for half a surrogate pair, and
what follows it. -/
def stringChar? : List Char → Option (Option Char × List Char)
  | '\\' :: 'u' :: rest => do
    let (_, after) ← Text.fourHex? rest
    some (match Text.unicodeEscape? Text.fourHex? rest with
      | some (c, rest) => (some c, rest)
      | none => (none, after))
  | '\\' :: escape :: rest => do
    let c ← [('"', '"'), ('\\', '\\'), ('/', '/'), ('b', '\x08'), ('f', '\x0c'), ('n', '\n'),
      ('r', '\r'), ('t', '\t')].lookup escape
    some (some c, rest)
  | ['\\'] => none
  | [] => none
  | c :: rest => if c.toNat < 32 then none else some (some c, rest)

/-- The characters of a string up to its closing quote, or nothing if half a surrogate pair is among
them, and the rest. -/
def stringTail? : Nat → List Char → Option (Option (List Char) × List Char)
  | 0, _ => none
  | _ + 1, '"' :: rest => some (some [], rest)
  | fuel + 1, text => do
    let (c, rest) ← stringChar? text
    let (chars, rest) ← stringTail? fuel rest
    some (do some ((← c) :: (← chars)), rest)

/-- Extend a natural number by digits for as long as it stays below `2 ^ 64`; the digits that were
left over are returned. -/
def extend (value : Nat) : List Char → Nat × List Char
  | [] => (value, [])
  | digit :: digits =>
    let next := 10 * value + (digit.toNat - 48)
    if next < Nat.pow 2 64 then extend next digits else (value, digit :: digits)

/-- A rounded power of ten. -/
def powerOfTen (power : Nat) : Binary64 := Binary64.ofRatio false (Nat.pow 10 power) 1

/-- Scale a number by a power of ten in rounded steps; nothing if it becomes infinite. -/
def scale? : Nat → Binary64 → Int → Option Binary64
  | 0, value, _ => some value
  | fuel + 1, value, power =>
    if power.natAbs ≤ 308 then
      if 0 ≤ power then
        let scaled := value.mul (powerOfTen power.natAbs)
        if scaled.isFinite then some scaled else none
      else some (value.div (powerOfTen power.natAbs))
    else if value.isZero then some value
    else if 0 ≤ power then none
    else scale? fuel (value.div (powerOfTen 308)) (power + 308)

/-- The digits of an exponent after its sign, and the rest. -/
def exponentDigits? (negative : Bool) (text : List Char) : Option (Int × List Char) :=
  let (digits, rest) := text.span Char.isDigit
  if digits.isEmpty then none
  else
    let value : Int := (ofDecimalDigits digits : Nat)
    some (if negative then -value else value, rest)

/-- The digits of an exponent after an optional sign, and the rest. -/
def signedExponent? : List Char → Option (Int × List Char)
  | '-' :: rest => exponentDigits? true rest
  | '+' :: rest => exponentDigits? false rest
  | text => exponentDigits? false text

/-- The exponent of a number, zero if there is none, and the rest. -/
def exponent? (text : List Char) : Option (Int × List Char) :=
  match text with
  | 'e' :: rest => signedExponent? rest
  | 'E' :: rest => signedExponent? rest
  | _ => some (0, text)

/-- The number with the given sign, digits before and after the point, and exponent. -/
def realNumber? (negative : Bool) (whole fraction : List Char) (exponent : Int) :
    Option Number := do
  let (significand, skipped) := extend 0 whole
  let (significand, ignored) := extend significand fraction
  let power := exponent + skipped.length - (fraction.length - ignored.length : Nat)
  let value ← scale? 4 (Binary64.ofRatio false significand 1) power
  some (.real (if negative then value.neg else value))

/-- The number with the given sign and digits, an integer if it fits. -/
def wholeNumber? (negative : Bool) (digits : List Char) : Option Number :=
  let value := ofDecimalDigits digits
  if negative then
    if 0 < value ∧ value ≤ Nat.pow 2 63 then some (.integer (-(value : Int)))
    else realNumber? true digits [] 0
  else if value < Nat.pow 2 64 then some (.integer value)
  else realNumber? false digits [] 0

/-- Whether digits may stand before the point: at least one, and no zero in front of others. -/
def isWhole : List Char → Bool
  | [] => false
  | '0' :: _ :: _ => false
  | _ => true

/-- A number after the digits before its point, or nothing if it is beyond all others, and the
rest. -/
def afterWhole? (negative : Bool) (whole : List Char) :
    List Char → Option (Option Number × List Char)
  | '.' :: rest =>
    let (fraction, rest) := rest.span Char.isDigit
    if fraction.isEmpty then none
    else (exponent? rest).map fun (exponent, rest) =>
      (realNumber? negative whole fraction exponent, rest)
  | rest =>
    let marked := rest.head?.any fun c => c == 'e' || c == 'E'
    (exponent? rest).map fun (exponent, rest) =>
      (if marked then realNumber? negative whole [] exponent else wholeNumber? negative whole, rest)

/-- A number after its sign, or nothing if it is beyond all others, and the rest. -/
def unsigned? (negative : Bool) (text : List Char) : Option (Option Number × List Char) :=
  let (whole, rest) := text.span Char.isDigit
  if isWhole whole then afterWhole? negative whole rest else none

/-- A number, or nothing if it is beyond all others, and the rest. -/
def number? : List Char → Option (Option Number × List Char)
  | '-' :: rest => unsigned? true rest
  | text => unsigned? false text

/-- The object with the given members, unless one of them has no name. -/
def ofMembers (members : List (Option String × Json)) : Json :=
  match members.mapM fun (key, value) => key.map (·, value) with
  | some members => object members
  | none => unreadable

mutual

/-- A value at the front of a text, and the rest. -/
def value? : Nat → List Char → Option (Json × List Char)
  | 0, _ => none
  | fuel + 1, text =>
    match skipSpace text with
    | [] => none
    | '"' :: rest => do
      let (chars, rest) ← stringTail? fuel rest
      some ((chars.map fun chars => string (String.ofList chars)).getD unreadable, rest)
    | '[' :: rest =>
      match skipSpace rest with
      | ']' :: rest => some (array [], rest)
      | rest => do
        let (items, rest) ← items? fuel rest
        some (array items, rest)
    | '\x7b' :: rest =>
      match skipSpace rest with
      | '\x7d' :: rest => some (object [], rest)
      | rest => do
        let (members, rest) ← members? fuel rest
        some (ofMembers members, rest)
    | 'n' :: rest => (Text.after? ['u', 'l', 'l'] rest).map (null, ·)
    | 't' :: rest => (Text.after? ['r', 'u', 'e'] rest).map (bool true, ·)
    | 'f' :: rest => (Text.after? ['a', 'l', 's', 'e'] rest).map (bool false, ·)
    | other => (number? other).map fun (n, rest) => ((n.map number).getD unreadable, rest)

/-- The items of an array up to its closing bracket. -/
def items? : Nat → List Char → Option (List Json × List Char)
  | 0, _ => none
  | fuel + 1, text => do
    let (item, rest) ← value? fuel text
    match skipSpace rest with
    | ',' :: rest => do
      let (items, rest) ← items? fuel rest
      some (item :: items, rest)
    | ']' :: rest => some ([item], rest)
    | _ => none

/-- The members of an object up to its closing brace. -/
def members? : Nat → List Char → Option (List (Option String × Json) × List Char)
  | 0, _ => none
  | fuel + 1, text =>
    match skipSpace text with
    | '"' :: rest => do
      let (key, rest) ← stringTail? fuel rest
      match skipSpace rest with
      | ':' :: rest => do
        let (value, rest) ← value? fuel rest
        let member := (key.map String.ofList, value)
        match skipSpace rest with
        | ',' :: rest => do
          let (members, rest) ← members? fuel rest
          some (member :: members, rest)
        | '\x7d' :: rest => some ([member], rest)
        | _ => none
      | _ => none
    | _ => none

end

/-- The value that a text is written for, with `unreadable` for each part that denotes nothing. -/
def read? (text : String) : Option Json := do
  let chars := text.toList
  let (value, rest) ← value? (2 * chars.length + 2) chars
  match skipSpace rest with
  | [] => some value
  | _ => none

/-- The value that a text denotes. Arrays and objects nest to a depth of 127. -/
def parse? (text : String) : Option Json := (read? text).filter (isReadable 127)

end SqlPipeline.Json
