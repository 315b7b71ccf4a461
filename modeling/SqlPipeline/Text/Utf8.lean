import SqlPipeline.Text.Encoding

/-!
# Bytes as texts

Bytes are read as the characters that they encode. Where they encode none, a text that is only to be
shown has one replacement character for the longest run of bytes with which a character could start,
or for a single byte.
-/

namespace SqlPipeline.Text

/-- The text that some bytes encode, if they encode one. -/
def ofUtf8? (bytes : List UInt8) : Option String := String.fromUTF8? bytes.toByteArray

/-- The least and the greatest byte at each place after the first byte of a character. -/
def followers (first : UInt8) : List (UInt8 × UInt8) :=
  let any := (0x80, 0xBF)
  if first < 0xC2 then []
  else if first < 0xE0 then [any]
  else if first = 0xE0 then [(0xA0, 0xBF), any]
  else if first = 0xED then [(0x80, 0x9F), any]
  else if first < 0xF0 then [any, any]
  else if first = 0xF0 then [(0x90, 0xBF), any, any]
  else if first < 0xF4 then [any, any, any]
  else if first = 0xF4 then [(0x80, 0x8F), any, any]
  else []

/-- How many bytes after a first one can belong to the same character. -/
def following (first : UInt8) (rest : List UInt8) : Nat :=
  (((followers first).zip rest).takeWhile fun (range, byte) =>
    range.1 ≤ byte ∧ byte ≤ range.2).length

/-- The characters to show for some bytes, of which the first `skipped` ones have been read. -/
def shownChars : Nat → List UInt8 → List Char
  | _, [] => []
  | skipped + 1, _ :: rest => shownChars skipped rest
  | 0, first :: rest =>
    match (first :: rest).toByteArray.utf8DecodeChar? 0 with
    | some c => c :: shownChars (c.utf8Size - 1) rest
    | none => '\uFFFD' :: shownChars (following first rest) rest

/-- The text to show for some bytes. -/
def shownUtf8 (bytes : List UInt8) : String := String.ofList (shownChars 0 bytes)

end SqlPipeline.Text
