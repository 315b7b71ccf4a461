/-!
# Binary floating-point numbers

A `Binary64` is a double-precision number held exactly. Every finite magnitude is a whole number of
the least positive one, `2 ^ (-1074)`, so sums, products and comparisons are computed on natural
numbers and rounded once, to the nearest value with ties to the even significand.
-/

namespace SqlPipeline

/-- `numerator / denominator` rounded to the nearest natural number, ties to even. -/
def roundHalfEven (numerator denominator : Nat) : Nat :=
  let quotient := numerator / denominator
  let twice := 2 * (numerator % denominator)
  if twice > denominator ∨ (twice = denominator ∧ quotient % 2 = 1) then quotient + 1 else quotient

/-- A finite magnitude `significand * 2 ^ (exponent - 1074)` in its only form: fewer than 54 bits,
and all 53 of them used unless the exponent is least. -/
structure Magnitude where
  /-- The significant bits. -/
  significand : Nat
  /-- The power of two, counted from the least positive magnitude. -/
  exponent : Nat
  /-- The significand fits, is normalised, and the exponent is in range. -/
  canonical : significand < Nat.pow 2 53 ∧ (exponent = 0 ∨ Nat.pow 2 52 ≤ significand) ∧
    exponent ≤ 2045
deriving DecidableEq

namespace Magnitude

/-- The magnitude with the given parts, if they are canonical. -/
def ofParts? (significand exponent : Nat) : Option Magnitude :=
  if h : significand < Nat.pow 2 53 ∧ (exponent = 0 ∨ Nat.pow 2 52 ≤ significand) ∧
      exponent ≤ 2045 then
    some ⟨significand, exponent, h⟩
  else none

/-- Zero. -/
def zero : Magnitude := ⟨0, 0, by decide⟩

/-- How many times the least positive magnitude goes into this one. -/
def units (magnitude : Magnitude) : Nat := magnitude.significand * Nat.pow 2 magnitude.exponent

/-- The magnitude nearest to `numerator / denominator`, or nothing beyond the largest one. -/
def nearest? (numerator denominator : Nat) : Option Magnitude :=
  let scaled := numerator * Nat.pow 2 1074
  let exponent := (scaled / denominator).log2 - 52
  let significand := roundHalfEven scaled (denominator * Nat.pow 2 exponent)
  if significand = Nat.pow 2 53 then ofParts? (Nat.pow 2 52) (exponent + 1)
  else ofParts? significand exponent

/-- The magnitude nearest to `digits * 10 ^ power`, or nothing beyond the largest one. -/
def ofDecimal? (digits : Nat) (power : Int) : Option Magnitude :=
  if digits = 0 then some zero
  else if 0 ≤ power then
    if power > 400 then none else nearest? (digits * Nat.pow 10 power.toNat) 1
  else if power + digits.log2 < -400 then some zero
  else nearest? digits (Nat.pow 10 (-power).toNat)

end Magnitude

/-- A double-precision number. -/
inductive Binary64 where
  /-- A signed finite number; zero has a sign as well. -/
  | finite (negative : Bool) (magnitude : Magnitude)
  /-- An infinity. -/
  | infinite (negative : Bool)
  /-- The result of an undefined operation. -/
  | notANumber
deriving DecidableEq

namespace Binary64

/-- Attach a sign to a rounded magnitude, where overflow gives an infinity. -/
def ofMagnitude? (negative : Bool) : Option Magnitude → Binary64
  | some magnitude => finite negative magnitude
  | none => infinite negative

/-- The number nearest to a signed ratio. -/
def ofRatio (negative : Bool) (numerator denominator : Nat) : Binary64 :=
  ofMagnitude? negative (Magnitude.nearest? numerator denominator)

/-- The number nearest to a signed decimal `digits * 10 ^ power`. -/
def ofDecimal (negative : Bool) (digits : Nat) (power : Int) : Binary64 :=
  ofMagnitude? negative (Magnitude.ofDecimal? digits power)

/-- The number nearest to an integer. -/
def ofInt (n : Int) : Binary64 := ofRatio (n < 0) n.natAbs 1

/-- Whether the number is neither infinite nor undefined. -/
def isFinite : Binary64 → Bool
  | finite _ _ => true
  | _ => false

/-- Whether the number is zero of either sign. -/
def isZero : Binary64 → Bool
  | finite _ magnitude => magnitude.significand = 0
  | _ => false

/-- The number with the opposite sign. -/
def neg : Binary64 → Binary64
  | finite negative magnitude => finite (!negative) magnitude
  | infinite negative => infinite (!negative)
  | notANumber => notANumber

/-- The signed count of least positive magnitudes in a finite number. -/
def signedUnits (negative : Bool) (magnitude : Magnitude) : Int :=
  if negative then -(magnitude.units : Int) else magnitude.units

/-- Sum. -/
def add : Binary64 → Binary64 → Binary64
  | notANumber, _ => notANumber
  | _, notANumber => notANumber
  | infinite a, infinite b => if a = b then infinite a else notANumber
  | infinite a, finite _ _ => infinite a
  | finite _ _, infinite b => infinite b
  | finite a x, finite b y =>
    let sum := signedUnits a x + signedUnits b y
    if sum = 0 then finite (a && b) Magnitude.zero
    else ofRatio (sum < 0) sum.natAbs (Nat.pow 2 1074)

/-- Difference. -/
def sub (x y : Binary64) : Binary64 := x.add y.neg

/-- Product. -/
def mul : Binary64 → Binary64 → Binary64
  | notANumber, _ => notANumber
  | _, notANumber => notANumber
  | infinite a, infinite b => infinite (a != b)
  | infinite a, finite b y => if y.significand = 0 then notANumber else infinite (a != b)
  | finite a x, infinite b => if x.significand = 0 then notANumber else infinite (a != b)
  | finite a x, finite b y => ofRatio (a != b) (x.units * y.units) (Nat.pow 2 2148)

/-- Quotient. -/
def div : Binary64 → Binary64 → Binary64
  | notANumber, _ => notANumber
  | _, notANumber => notANumber
  | infinite _, infinite _ => notANumber
  | infinite a, finite b _ => infinite (a != b)
  | finite a _, infinite b => finite (a != b) Magnitude.zero
  | finite a x, finite b y =>
    if y.significand = 0 then
      if x.significand = 0 then notANumber else infinite (a != b)
    else ofRatio (a != b) x.units y.units

/-- Remainder with the sign of the dividend. -/
def rem : Binary64 → Binary64 → Binary64
  | finite a x, finite _ y =>
    if y.significand = 0 then notANumber else ofRatio a (x.units % y.units) (Nat.pow 2 1074)
  | finite a x, infinite _ => finite a x
  | _, _ => notANumber

/-- The greatest integral number at or below. -/
def floor : Binary64 → Binary64
  | finite negative magnitude =>
    let whole := magnitude.units / Nat.pow 2 1074
    let exact := magnitude.units % Nat.pow 2 1074 = 0
    ofRatio negative (if negative && !exact then whole + 1 else whole) 1
  | other => other

/-- The order of two numbers, unless one is undefined; both zeros are equal. -/
def compare? : Binary64 → Binary64 → Option Ordering
  | notANumber, _ => none
  | _, notANumber => none
  | infinite a, infinite b => some (if a = b then .eq else if a then .lt else .gt)
  | infinite a, finite _ _ => some (if a then .lt else .gt)
  | finite _ _, infinite b => some (if b then .gt else .lt)
  | finite a x, finite b y => some (compare (signedUnits a x) (signedUnits b y))

/-- The integer that equals the number, if there is one. -/
def toInt? : Binary64 → Option Int
  | finite negative magnitude =>
    if magnitude.units % Nat.pow 2 1074 = 0 then
      let whole : Int := (magnitude.units / Nat.pow 2 1074 : Nat)
      some (if negative then -whole else whole)
    else none
  | _ => none

end Binary64

end SqlPipeline
