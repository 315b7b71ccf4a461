import SqlPipeline.Number.Binary64

/-!
# Decimal texts of binary numbers

A finite number is written with the fewest digits that read back as the same number, and of those
with the nearest. A `FloatLayout` then says where the point goes and when an exponent is written.
A fixed number of places is rounded from the exact value, a half to the even neighbour.
-/

namespace SqlPipeline

/-- The decimal digits of a natural number. -/
def decimalDigits (n : Nat) : List Char := Nat.toDigits 10 n

/-- The value of a list of decimal digits. -/
def ofDecimalDigits (digits : List Char) : Nat :=
  digits.foldl (fun value digit => 10 * value + (digit.toNat - 48)) 0

/-- A positive decimal `digits * 10 ^ power`. -/
structure Decimal where
  /-- The digits read as one natural number. -/
  digits : Nat
  /-- The power of ten of the last digit. -/
  power : Int
deriving DecidableEq, Repr

namespace Decimal

/-- Move factors of ten from the digits to the power, at most `fuel` of them. -/
def stripZeros : Nat → Decimal → Decimal
  | 0, decimal => decimal
  | fuel + 1, decimal =>
    if decimal.digits ≠ 0 ∧ decimal.digits % 10 = 0 then
      stripZeros fuel ⟨decimal.digits / 10, decimal.power + 1⟩
    else decimal

/-- Whether a decimal reads back as the magnitude. -/
def reads (decimal : Decimal) (magnitude : Magnitude) : Bool :=
  Magnitude.ofDecimal? decimal.digits decimal.power == some magnitude

/-- How many times `numerator` must be multiplied by ten to reach `denominator`. -/
def stepsToReach : Nat → Nat → Nat → Nat
  | 0, _, _ => 0
  | fuel + 1, numerator, denominator =>
    if denominator ≤ numerator then 0 else stepsToReach fuel (10 * numerator) denominator + 1

/-- The power of ten of the first digit of `numerator / denominator`, which is not zero. -/
def leadingPower (numerator denominator : Nat) : Int :=
  if denominator ≤ numerator then ((decimalDigits (numerator / denominator)).length : Int) - 1
  else -(stepsToReach 400 numerator denominator : Int)

/-- Of the two neighbours of a magnitude with the last digit at `power`, the nearer one that reads
back, the even one of two equally near. -/
def neighbour? (magnitude : Magnitude) (power : Int) : Option Decimal :=
  let numerator := magnitude.units * Nat.pow 10 (-power).toNat
  let denominator := Nat.pow 2 1074 * Nat.pow 10 power.toNat
  let lower := numerator / denominator
  let nearer := roundHalfEven numerator denominator
  let further := if nearer = lower then lower + 1 else lower
  if reads ⟨nearer, power⟩ magnitude then some ⟨nearer, power⟩
  else if reads ⟨further, power⟩ magnitude then some ⟨further, power⟩
  else none

/-- The exact value of a magnitude. -/
def exact (magnitude : Magnitude) : Decimal :=
  ⟨magnitude.units * Nat.pow 5 1074, -1074⟩

/-- The first hit on the grids whose last digit is at `power`, `power - 1`, and so on. -/
def firstHit (magnitude : Magnitude) : Nat → Int → Decimal
  | 0, _ => exact magnitude
  | fuel + 1, power => (neighbour? magnitude power).getD (firstHit magnitude fuel (power - 1))

/-- The shortest decimal that reads back as the magnitude, without trailing zeros. -/
def shortest (magnitude : Magnitude) : Decimal :=
  if magnitude.significand = 0 then ⟨0, 0⟩
  else stripZeros 1100 (firstHit magnitude 17 (leadingPower magnitude.units (Nat.pow 2 1074)))

end Decimal

/-- Where the texts of floating-point numbers differ between formats. -/
structure FloatLayout where
  /-- The least power of ten of the first digit that is written without an exponent. -/
  leastPositional : Int
  /-- The greatest power of ten of the first digit that is written without an exponent. -/
  greatestPositional : Int
  /-- Whether an exponent that is not negative has a sign. -/
  plusSign : Bool
deriving DecidableEq, Repr

namespace FloatLayout

/-- Digits with the decimal point after the first `whole` of them and at least one on each side. -/
def pointAt (digits : List Char) (whole : Int) : List Char :=
  if whole ≤ 0 then ['0', '.'] ++ List.replicate (-whole).toNat '0' ++ digits
  else
    let places := whole.toNat
    if digits.length ≤ places then
      digits ++ List.replicate (places - digits.length) '0' ++ ['.', '0']
    else digits.take places ++ ['.'] ++ digits.drop places

/-- Digits with the point after the first one, followed by the power of ten. -/
def withExponent (plusSign : Bool) (digits : List Char) (power : Int) : List Char :=
  let mantissa := match digits with
    | first :: second :: rest => first :: '.' :: second :: rest
    | short => short
  let sign := if power < 0 then ['-'] else if plusSign then ['+'] else []
  mantissa ++ ['e'] ++ sign ++ decimalDigits power.natAbs

/-- The text of a magnitude. -/
def magnitudeText (layout : FloatLayout) (magnitude : Magnitude) : List Char :=
  let decimal := Decimal.shortest magnitude
  let digits := decimalDigits decimal.digits
  let power := decimal.power + digits.length - 1
  if layout.leastPositional ≤ power ∧ power ≤ layout.greatestPositional then
    pointAt digits (power + 1)
  else withExponent layout.plusSign digits power

/-- The text of a number. -/
def text (layout : FloatLayout) : Binary64 → List Char
  | .finite negative magnitude =>
    (if negative then ['-'] else []) ++ layout.magnitudeText magnitude
  | .infinite negative => if negative then ['-', 'i', 'n', 'f'] else ['i', 'n', 'f']
  | .notANumber => ['N', 'a', 'N']

end FloatLayout

/-- The text of a number with two places, rounded from its exact value. -/
def twoPlaces : Binary64 → List Char
  | .finite negative magnitude =>
    let hundredths := decimalDigits (roundHalfEven (magnitude.units * 100) (Nat.pow 2 1074))
    let padded := List.replicate (3 - hundredths.length) '0' ++ hundredths
    let whole := padded.length - 2
    (if negative then ['-'] else []) ++ padded.take whole ++ ['.'] ++ padded.drop whole
  | .infinite negative => if negative then ['-', 'i', 'n', 'f'] else ['i', 'n', 'f']
  | .notANumber => ['N', 'a', 'N']

end SqlPipeline
