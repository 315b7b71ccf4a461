import SqlPipeline.Number.Decimal

/-!
# Dates and times in TOML

A date, a time, or both with an optional offset from UTC. The normal form has a capital `T` between
date and time, no zeros at the end of the fraction of a second, and at most nine digits of it.
-/

namespace SqlPipeline.Toml

/-- A number of two digits between two bounds, and the rest. -/
def twoDigits? (least greatest : Nat) : List Char → Option (Nat × List Char)
  | a :: b :: rest =>
    let value := ofDecimalDigits [a, b]
    if a.isDigit && b.isDigit && least ≤ value && value ≤ greatest then some (value, rest) else none
  | _ => none

/-- The number of days of a month. -/
def daysInMonth (year month : Nat) : Nat :=
  if month = 2 then
    if year % 4 = 0 ∧ (year % 100 ≠ 0 ∨ year % 400 = 0) then 29 else 28
  else if [4, 6, 9, 11].contains month then 30
  else 31

/-- A date in normal form, and the rest. -/
def date? (text : List Char) : Option (List Char × List Char) := do
  let year := text.take 4
  if year.length = 4 ∧ year.all Char.isDigit then
    match text.drop 4 with
    | '-' :: afterYear => do
      let (month, rest) ← twoDigits? 1 12 afterYear
      match rest with
      | '-' :: afterMonth => do
        let (_, rest) ← twoDigits? 1 (daysInMonth (ofDecimalDigits year) month) afterMonth
        some (text.take 10, rest)
      | _ => none
    | _ => none
  else none

/-- The fraction of a second in normal form, and the rest. -/
def fraction (text : List Char) : List Char × List Char :=
  match text with
  | '.' :: rest =>
    let (digits, after) := rest.span Char.isDigit
    if digits.isEmpty then ([], text)
    else
      let kept := ((digits.take 9).reverse.dropWhile (· = '0')).reverse
      (if kept.isEmpty then [] else '.' :: kept, after)
  | _ => ([], text)

/-- A time in normal form, and the rest. -/
def time? (text : List Char) : Option (List Char × List Char) := do
  let (_, rest) ← twoDigits? 0 23 text
  match rest with
  | ':' :: rest => do
    let (_, rest) ← twoDigits? 0 59 rest
    match rest with
    | ':' :: rest => do
      let (_, rest) ← twoDigits? 0 60 rest
      let (fraction, rest) := fraction rest
      some (text.take 8 ++ fraction, rest)
    | _ => none
  | _ => none

/-- An offset from UTC in normal form, empty if there is none, and the rest. -/
def offset (text : List Char) : List Char × List Char :=
  let signed := fun (sign : Char) (rest : List Char) => do
    let (hours, after) ← twoDigits? 0 23 rest
    match after with
    | ':' :: after => do
      let (minutes, after) ← twoDigits? 0 59 after
      let sign := if hours = 0 ∧ minutes = 0 then '+' else sign
      some (sign :: rest.take 5, after)
    | _ => none
  match text with
  | 'Z' :: rest => (['Z'], rest)
  | 'z' :: rest => (['Z'], rest)
  | '+' :: rest => (signed '+' rest).getD ([], text)
  | '-' :: rest => (signed '-' rest).getD ([], text)
  | _ => ([], text)

/-- A time after a date, with a mark between them. -/
def timeAfterDate? : List Char → Option (List Char × List Char)
  | mark :: rest =>
    if mark = 'T' ∨ mark = 't' ∨ mark = ' ' then do
      let (time, rest) ← time? rest
      let (offset, rest) := offset rest
      some ('T' :: time ++ offset, rest)
    else none
  | [] => none

/-- A date, a time, or both in normal form, and the rest. -/
def moment? (text : List Char) : Option (String × List Char) :=
  match date? text with
  | some (date, rest) =>
    match timeAfterDate? rest with
    | some (time, rest) => some (String.ofList (date ++ time), rest)
    | none => some (String.ofList date, rest)
  | none => (time? text).map fun (time, rest) => (String.ofList time, rest)

end SqlPipeline.Toml
