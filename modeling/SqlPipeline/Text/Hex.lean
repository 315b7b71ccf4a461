/-!
# Hexadecimal digits
-/

namespace SqlPipeline.Text

/-- The value of a hexadecimal digit. -/
def hexValue? (c : Char) : Option Nat :=
  if '0' ≤ c ∧ c ≤ '9' then some (c.toNat - 48)
  else if 'a' ≤ c ∧ c ≤ 'f' then some (c.toNat - 87)
  else if 'A' ≤ c ∧ c ≤ 'F' then some (c.toNat - 55)
  else none

/-- The digit of a value below sixteen, in lower case. -/
def hexDigit (n : Nat) : Char := if n < 10 then Char.ofNat (48 + n) else Char.ofNat (87 + n)

/-- The value of a list of hexadecimal digits. -/
def hexNumber? (digits : List Char) : Option Nat :=
  digits.foldlM (fun value c => (hexValue? c).map (16 * value + ·)) 0

/-- The value of four hexadecimal digits, and the rest. -/
def fourHex? : List Char → Option (Nat × List Char)
  | a :: b :: c :: d :: rest => (hexNumber? [a, b, c, d]).map (·, rest)
  | _ => none

/-- The character that the halves of a surrogate pair stand for. -/
def ofSurrogates (high low : Nat) : Char :=
  Char.ofNat (0x10000 + (high - 0xD800) * 0x400 + (low - 0xDC00))

/-- The character of an escape by one code unit, which another such escape completes if the first
one is the high half of a surrogate pair. The units are read by `unit?`. -/
def unicodeEscape? (unit? : List Char → Option (Nat × List Char)) (text : List Char) :
    Option (Char × List Char) := do
  let (unit, rest) ← unit? text
  if 0xDC00 ≤ unit ∧ unit ≤ 0xDFFF then none
  else if 0xD800 ≤ unit ∧ unit ≤ 0xDBFF then
    match rest with
    | '\\' :: 'u' :: rest => do
      let (low, rest) ← unit? rest
      if 0xDC00 ≤ low ∧ low ≤ 0xDFFF then some (ofSurrogates unit low, rest) else none
    | _ => none
  else some (Char.ofNat unit, rest)

/-- The two digits of a byte. -/
def byteDigits (byte : UInt8) : List Char :=
  [hexDigit (byte.toNat / 16), hexDigit (byte.toNat % 16)]

/-- The digits of a sequence of bytes. -/
def hexOfBytes (bytes : List UInt8) : String := String.ofList (bytes.flatMap byteDigits)

/-- The bytes that pairs of digits stand for. -/
def bytesOfHex? : List Char → Option (List UInt8)
  | [] => some []
  | [_] => none
  | a :: b :: rest => do
    let value ← hexNumber? [a, b]
    let bytes ← bytesOfHex? rest
    some (UInt8.ofNat value :: bytes)

end SqlPipeline.Text
