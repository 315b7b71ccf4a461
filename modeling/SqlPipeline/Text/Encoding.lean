import SqlPipeline.Text.Case
import SqlPipeline.Text.Quoted

/-!
# Character encodings

Five ways to write a text as bytes. Two of them cover only the first 256 or 128 characters; a text
with any other character is refused, and its first such character reported.
-/

namespace SqlPipeline

/-- A way to write characters as bytes. -/
inductive Encoding where
  | utf8
  /-- Units of two bytes, the low byte first. -/
  | utf16LowFirst
  /-- Units of two bytes, the high byte first. -/
  | utf16HighFirst
  /-- One byte for each of the first 256 characters. -/
  | latin1
  /-- One byte for each of the first 128 characters. -/
  | ascii
deriving DecidableEq, Repr

/-- Why a text cannot be encoded. -/
inductive EncodingError where
  | unknownEncoding (label : String)
  | unrepresentable (character : Char) (encoding : Encoding)
deriving DecidableEq, Repr

namespace Encoding

/-- The name of an encoding. -/
def name : Encoding → String
  | utf8 => "utf-8"
  | utf16LowFirst => "utf-16-le"
  | utf16HighFirst => "utf-16-be"
  | latin1 => "latin-1"
  | ascii => "ascii"

/-- The key of an encoding in settings. -/
def key : Encoding → String
  | utf8 => "utf8"
  | utf16LowFirst => "utf16-le"
  | utf16HighFirst => "utf16-be"
  | latin1 => "latin1"
  | ascii => "ascii"

/-- The labels of all encodings, in lower case and with hyphens. -/
def labels : List (String × Encoding) := [
  ("utf-8", utf8), ("utf8", utf8),
  ("utf-16-le", utf16LowFirst), ("utf-16le", utf16LowFirst), ("utf16le", utf16LowFirst),
  ("utf-16-be", utf16HighFirst), ("utf-16be", utf16HighFirst), ("utf16be", utf16HighFirst),
  ("latin-1", latin1), ("latin1", latin1), ("iso-8859-1", latin1),
  ("ascii", ascii), ("us-ascii", ascii)]

/-- The encoding with a label, in any case and with underscores for hyphens. -/
def ofLabel (label : String) : Except EncodingError Encoding :=
  let normal := (Text.lower label).map fun c => if c = '_' then '-' else c
  match labels.lookup normal with
  | some encoding => .ok encoding
  | none => .error (.unknownEncoding label)

/-- The units of sixteen bits of a character: itself, or a pair beyond the first 65536. -/
def units16 (c : Char) : List Nat :=
  if c.toNat < 0x10000 then [c.toNat]
  else
    let rest := c.toNat - 0x10000
    [0xD800 + rest / 0x400, 0xDC00 + rest % 0x400]

/-- The low and the high byte of a unit. -/
def lowFirst (unit : Nat) : List UInt8 := [UInt8.ofNat (unit % 256), UInt8.ofNat (unit / 256)]

/-- The high and the low byte of a unit. -/
def highFirst (unit : Nat) : List UInt8 := [UInt8.ofNat (unit / 256), UInt8.ofNat (unit % 256)]

/-- The bytes of a character, if the encoding has it. -/
def encodeChar? (encoding : Encoding) (c : Char) : Option (List UInt8) :=
  match encoding with
  | utf8 => some (String.utf8EncodeChar c)
  | utf16LowFirst => some ((units16 c).flatMap lowFirst)
  | utf16HighFirst => some ((units16 c).flatMap highFirst)
  | latin1 => if c.toNat < 256 then some [UInt8.ofNat c.toNat] else none
  | ascii => if c.toNat < 128 then some [UInt8.ofNat c.toNat] else none

/-- The bytes of a list of characters. -/
def encodeChars (encoding : Encoding) : List Char → Except EncodingError (List UInt8)
  | [] => .ok []
  | c :: chars => do
    match encoding.encodeChar? c with
    | some bytes => .ok (bytes ++ (← encodeChars encoding chars))
    | none => .error (.unrepresentable c encoding)

/-- The bytes of a text. -/
def encode (encoding : Encoding) (text : String) : Except EncodingError (List UInt8) :=
  encodeChars encoding text.toList

end Encoding

/-- What is wrong, in words. -/
def EncodingError.message : EncodingError → String
  | unknownEncoding label => "Unknown encoding: " ++ label
  | unrepresentable c encoding =>
    "Character " ++ Text.quoteChar c ++ " cannot be encoded as " ++ encoding.name

end SqlPipeline
