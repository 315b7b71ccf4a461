import SqlPipeline.Proofs.Text.Encoding
import SqlPipeline.Text.Utf8

/-!
# Bytes read as texts

Bytes are read as a text exactly if they are what the text is written as.  Such bytes are also shown
as that text, so a replacement character stands only for bytes that encode none.
-/

namespace SqlPipeline

variable {bytes : List UInt8} {text : String}

/-- A text is written as the bytes of its characters, one after the other. -/
theorem Encoding.encodeChars_utf8 (chars : List Char) :
    utf8.encodeChars chars = .ok (chars.flatMap String.utf8EncodeChar) := by
  induction chars with
  | nil => rfl
  | cons c chars ih =>
    rw [encodeChars_cons_of_some rfl, ih, List.flatMap_cons]
    rfl

theorem Encoding.encode_utf8_eq_ok_iff :
    utf8.encode text = .ok bytes ↔ text.toList.flatMap String.utf8EncodeChar = bytes := by
  rw [encode, encodeChars_utf8, Except.ok.injEq]

namespace Text

/-- Bytes are read as the text that is written as them. -/
theorem ofUtf8?_eq_some_iff :
    ofUtf8? bytes = some text ↔ Encoding.utf8.encode text = .ok bytes := by
  have written : text.toByteArray = (text.toList.flatMap String.utf8EncodeChar).toByteArray := by
    rw [← List.utf8Encode, String.utf8Encode_toList]
  rw [Encoding.encode_utf8_eq_ok_iff, ofUtf8?, String.fromUTF8?]
  constructor
  · intro read
    split at read
    · obtain rfl := Option.some.inj read
      exact (List.toByteArray_inj.mp written).symm
    · cases read
  · rintro rfl
    rw [← written, dif_pos text.isValidUTF8]
    rfl

/-- Of bytes that begin a character, only the next character is shown. -/
theorem shownChars_skipped (front rest : List UInt8) :
    shownChars front.length (front ++ rest) = shownChars 0 rest := by
  induction front with
  | nil => rfl
  | cons byte front ih => exact ih

theorem shownChars_utf8EncodeChar_append (c : Char) (rest : List UInt8) :
    shownChars 0 (String.utf8EncodeChar c ++ rest) = c :: shownChars 0 rest := by
  have read : (String.utf8EncodeChar c ++ rest).toByteArray.utf8DecodeChar? 0 = some c := by
    rw [List.toByteArray_append]
    exact ByteArray.utf8DecodeChar?_utf8EncodeChar_append
  have length := String.length_utf8EncodeChar c
  cases encoded : String.utf8EncodeChar c with
  | nil => exact absurd encoded String.utf8EncodeChar_ne_nil
  | cons first others =>
    rw [encoded, List.cons_append] at read
    rw [encoded, List.length_cons] at length
    rw [List.cons_append, shownChars, read]
    dsimp only
    rw [← length, Nat.add_sub_cancel, shownChars_skipped]

/-- What is written as a text is shown as that text. -/
theorem shownUtf8_of_encode (written : Encoding.utf8.encode text = .ok bytes) :
    shownUtf8 bytes = text := by
  obtain rfl := Encoding.encode_utf8_eq_ok_iff.mp written
  have shown : ∀ chars : List Char,
      shownChars 0 (chars.flatMap String.utf8EncodeChar) = chars := by
    intro chars
    induction chars with
    | nil => rfl
    | cons c chars ih => rw [List.flatMap_cons, shownChars_utf8EncodeChar_append, ih]
  rw [shownUtf8, shown, String.ofList_toList]

end Text
end SqlPipeline
