import SqlPipeline.Number.Decimal
import SqlPipeline.Text.Blank

/-!
# Instants

An instant is read from a date, a time and an offset from UTC, and written in UTC with as many
groups of three digits for the fraction of a second as it needs. A leap second counts as a second
longer than others.
-/

namespace SqlPipeline

/-- A point of time. -/
structure Instant where
  /-- Whole seconds since the start of 1970 in UTC. -/
  seconds : Int
  /-- Nanoseconds after that, a second or more in a leap second. -/
  nanos : Nat
deriving DecidableEq, Repr

namespace Instant

/-- Days from the start of 1970 to a date. -/
def daysOfDate (year : Int) (month day : Nat) : Int :=
  let year := if month ≤ 2 then year - 1 else year
  let era := year.fdiv 400
  let yearOfEra := (year - era * 400).toNat
  let monthOfYear := (month + 9) % 12
  let dayOfYear := (153 * monthOfYear + 2) / 5 + day - 1
  let dayOfEra := yearOfEra * 365 + yearOfEra / 4 - yearOfEra / 100 + dayOfYear
  era * 146097 + dayOfEra - 719468

/-- The date that lies a number of days after the start of 1970. -/
def dateOfDays (days : Int) : Int × Nat × Nat :=
  let days := days + 719468
  let era := days.fdiv 146097
  let dayOfEra := (days - era * 146097).toNat
  let yearOfEra := (dayOfEra - dayOfEra / 1460 + dayOfEra / 36524 - dayOfEra / 146096) / 365
  let dayOfYear := dayOfEra - (365 * yearOfEra + yearOfEra / 4 - yearOfEra / 100)
  let monthOfYear := (5 * dayOfYear + 2) / 153
  let day := dayOfYear - (153 * monthOfYear + 2) / 5 + 1
  let month := if monthOfYear < 10 then monthOfYear + 3 else monthOfYear - 9
  let year : Int := yearOfEra + era * 400
  (if month ≤ 2 then year + 1 else year, month, day)

/-- Whether a year is one that an instant may lie in. -/
def isYear (year : Int) : Bool := -262143 ≤ year && year ≤ 262142

/-- Whether a year, a month and a day are a date. -/
def isDate (year : Int) (month day : Nat) : Bool :=
  1 ≤ month && month ≤ 12 && 1 ≤ day && isYear year
    && dateOfDays (daysOfDate year month day) == (year, month, day)

/-- The rest of a text after leading blanks. -/
def skipBlanks (text : List Char) : List Char := text.dropWhile Text.isBlank

/-- A number of at most `most` digits after blanks, and the rest. -/
def number? (most : Nat) (text : List Char) : Option (Nat × List Char) :=
  let text := skipBlanks text
  let digits := (text.take most).takeWhile Char.isDigit
  if digits.isEmpty then none else some (ofDecimalDigits digits, text.drop digits.length)

/-- A year of at most four digits, or of any length after a sign, and the rest. -/
def year? (text : List Char) : Option (Int × List Char) :=
  let signed := fun (sign : Int) (rest : List Char) =>
    if rest.head?.any Char.isDigit then
      (number? rest.length rest).map fun (year, rest) => (sign * (year : Int), rest)
    else none
  match skipBlanks text with
  | '-' :: rest => signed (-1) rest
  | '+' :: rest => signed 1 rest
  | rest => (number? 4 rest).map fun (year, rest) => ((year : Int), rest)

/-- The rest after a mark, with blanks before it. -/
def mark? (mark : Char) (text : List Char) : Option (List Char) :=
  match skipBlanks text with
  | c :: rest => if c = mark then some rest else none
  | [] => none

/-- The nanoseconds of a fraction, of which nine digits count, and the rest. -/
def nanos? : List Char → Option (Nat × List Char)
  | '.' :: rest =>
    let (digits, after) := rest.span Char.isDigit
    if digits.isEmpty then none
    else
      let kept := digits.take 9
      some (ofDecimalDigits kept * Nat.pow 10 (9 - kept.length), after)
  | text => some (0, text)

/-- An offset from UTC in seconds, and the rest. -/
def offset? (text : List Char) : Option (Int × List Char) :=
  let signed := fun (sign : Int) (rest : List Char) =>
    match rest with
    | h :: h' :: rest =>
      match rest.dropWhile fun c => c = ':' || Text.isBlank c with
      | m :: m' :: rest =>
        if [h, h', m, m'].all Char.isDigit && m.toNat < '6'.toNat then
          let seconds := ofDecimalDigits [h, h'] * 3600 + ofDecimalDigits [m, m'] * 60
          if seconds < 86400 then some (sign * (seconds : Int), rest) else none
        else none
      | _ => none
    | _ => none
  match text with
  | 'Z' :: rest => some (0, rest)
  | 'z' :: rest => some (0, rest)
  | '+' :: rest => signed 1 rest
  | '-' :: rest => signed (-1) rest
  | '\u2212' :: rest => signed (-1) rest
  | a :: b :: c :: rest =>
    if [a, b, c].map Char.toLower = ['u', 't', 'c'] then some (0, rest) else none
  | _ => none

/-- The instant that a text denotes. Its year lies within the bounds both at its offset and in
UTC. -/
def parse? (text : String) : Option Instant := do
  let (year, rest) ← year? text.toList
  let (month, rest) ← number? 2 (← mark? '-' rest)
  let (day, rest) ← number? 2 (← mark? '-' rest)
  let rest ← match rest with
    | c :: rest => if c = 't' ∨ c = 'T' ∨ c = ' ' then some rest else none
    | [] => none
  let (hour, rest) ← number? 2 rest
  let (minute, rest) ← number? 2 (← mark? ':' rest)
  let (second, rest) ← number? 2 (← mark? ':' rest)
  let (nanos, rest) ← nanos? rest
  let (offset, rest) ← offset? (skipBlanks rest)
  if isDate year month day && hour < 24 && minute < 60 && second ≤ 60 && (skipBlanks rest).isEmpty
  then
    let whole : Nat := hour * 3600 + minute * 60 + min second 59
    let seconds := daysOfDate year month day * 86400 + whole - offset
    if isYear (dateOfDays (seconds.fdiv 86400)).1 then
      some { seconds, nanos := if second = 60 then nanos + Nat.pow 10 9 else nanos }
    else none
  else none

/-- A number with at least the given count of digits. -/
def padded (count n : Nat) : List Char :=
  let digits := decimalDigits n
  List.replicate (count - digits.length) '0' ++ digits

/-- The text of a year: four digits, and a sign if it needs more of them. -/
def yearText (year : Int) : List Char :=
  if 0 ≤ year ∧ year ≤ 9999 then padded 4 year.toNat
  else (if year < 0 then '-' else '+') :: padded 4 year.natAbs

/-- The text of nanoseconds in the fewest groups of three digits. -/
def nanosText (nanos : Nat) : List Char :=
  if nanos = 0 then []
  else if nanos % 1000000 = 0 then '.' :: padded 3 (nanos / 1000000)
  else if nanos % 1000 = 0 then '.' :: padded 6 (nanos / 1000)
  else '.' :: padded 9 nanos

/-- The text of an instant in UTC, up to the mark of the offset. -/
def localText (instant : Instant) : List Char :=
  let days := instant.seconds.fdiv 86400
  let second := (instant.seconds - days * 86400).toNat
  let leap := Nat.pow 10 9 ≤ instant.nanos
  let (year, month, day) := dateOfDays days
  yearText year ++ ['-'] ++ padded 2 month ++ ['-'] ++ padded 2 day ++ ['T']
    ++ padded 2 (second / 3600) ++ [':'] ++ padded 2 (second / 60 % 60) ++ [':']
    ++ padded 2 (second % 60 + if leap then 1 else 0)
    ++ nanosText (if leap then instant.nanos - Nat.pow 10 9 else instant.nanos)

/-- The text of an instant in UTC. -/
def text (instant : Instant) : String := String.ofList (instant.localText ++ ['Z'])

/-- The text of an instant in UTC with its offset in digits. -/
def offsetText (instant : Instant) : String :=
  String.ofList (instant.localText ++ ['+', '0', '0', ':', '0', '0'])

end Instant

end SqlPipeline
