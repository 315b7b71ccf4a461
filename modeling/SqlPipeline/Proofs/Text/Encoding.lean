import Mathlib.Data.List.Basic
import SqlPipeline.Proofs.Success
import SqlPipeline.Text.Encoding

/-!
# What encodings keep of a text

An encoding writes the characters of a text one after the other, up to the first one that it does
not have.  The bytes of a character never begin the bytes of another one, so they can be told apart
wherever one character ends, and texts with the same bytes are equal.
-/

namespace SqlPipeline
namespace Encoding

/-- The characters that an encoding has. -/
def Covers : Encoding → Char → Prop
  | latin1, c => c.toNat ≤ 0xFF
  | ascii, c => c.toNat ≤ 0x7F
  | utf8, _ | utf16LowFirst, _ | utf16HighFirst, _ => True

variable {encoding : Encoding} {c d : Char} {chars others : List Char}
  {bytes rest tail : List UInt8} {error : EncodingError}

theorem encodeChar?_eq_none_iff : encoding.encodeChar? c = none ↔ ¬ encoding.Covers c := by
  cases encoding with
  | utf8 | utf16LowFirst | utf16HighFirst => simp [encodeChar?, Covers]
  | latin1 | ascii =>
    simp only [encodeChar?, Covers, ite_eq_right_iff, reduceCtorEq, imp_false]
    omega

theorem exists_encodeChar?_iff :
    (∃ bytes, encoding.encodeChar? c = some bytes) ↔ encoding.Covers c := by
  rw [← Option.ne_none_iff_exists', ne_eq, encodeChar?_eq_none_iff, not_not]

/-! ## Characters one after the other -/

theorem encodeChars_cons_of_some (found : encoding.encodeChar? c = some bytes)
    (chars : List Char) :
    encoding.encodeChars (c :: chars) = (encoding.encodeChars chars).map (bytes ++ ·) := by
  rw [encodeChars, found]
  rfl

theorem encodeChars_cons_of_none (absent : encoding.encodeChar? c = none) (chars : List Char) :
    encoding.encodeChars (c :: chars) = .error (.unrepresentable c encoding) := by
  rw [encodeChars, absent]

theorem encodeChars_cons_eq_ok_iff :
    encoding.encodeChars (c :: chars) = .ok bytes ↔ ∃ first later,
      encoding.encodeChar? c = some first ∧ encoding.encodeChars chars = .ok later ∧
        first ++ later = bytes := by
  cases found : encoding.encodeChar? c with
  | none => simp [encodeChars_cons_of_none found]
  | some first =>
    rw [encodeChars_cons_of_some found]
    cases encoding.encodeChars chars with
    | error error => simp [Except.map]
    | ok later => simp [Except.map]

theorem encodeChars_append (encoding : Encoding) (front back : List Char) :
    encoding.encodeChars (front ++ back) = (do
      let first ← encoding.encodeChars front
      let second ← encoding.encodeChars back
      return first ++ second) := by
  induction front with
  | nil =>
    rw [List.nil_append]
    cases encoding.encodeChars back <;> rfl
  | cons c front ih =>
    cases found : encoding.encodeChar? c with
    | none =>
      rw [List.cons_append, encodeChars_cons_of_none found, encodeChars_cons_of_none found]
      rfl
    | some bytes =>
      rw [List.cons_append, encodeChars_cons_of_some found, encodeChars_cons_of_some found, ih]
      cases encoding.encodeChars front with
      | error error => rfl
      | ok first =>
        cases encoding.encodeChars back with
        | error error => rfl
        | ok second => exact congrArg Except.ok (List.append_assoc bytes first second).symm

theorem exists_encodeChars_iff :
    (∃ bytes, encoding.encodeChars chars = .ok bytes) ↔ ∀ c ∈ chars, encoding.Covers c := by
  induction chars with
  | nil => simp [encodeChars]
  | cons c chars ih =>
    rw [List.forall_mem_cons, ← ih, ← exists_encodeChar?_iff]
    simp only [encodeChars_cons_eq_ok_iff]
    constructor
    · rintro ⟨_, first, later, here, after, rfl⟩
      exact ⟨⟨first, here⟩, later, after⟩
    · rintro ⟨⟨first, here⟩, later, after⟩
      exact ⟨first ++ later, first, later, here, after, rfl⟩

/-- A text is refused because of its first character that the encoding does not have. -/
theorem encodeChars_eq_error_iff :
    encoding.encodeChars chars = .error error ↔
      ∃ front c back, chars = front ++ c :: back ∧ (∀ d ∈ front, encoding.Covers d) ∧
        ¬ encoding.Covers c ∧ error = .unrepresentable c encoding := by
  constructor
  · intro run
    induction chars with
    | nil => cases run
    | cons c chars ih =>
      cases found : encoding.encodeChar? c with
      | none =>
        rw [encodeChars_cons_of_none found] at run
        cases run
        exact ⟨[], c, chars, rfl, by simp, encodeChar?_eq_none_iff.mp found, rfl⟩
      | some bytes =>
        rw [encodeChars_cons_of_some found] at run
        obtain ⟨front, d, back, split, covered, missing, same⟩ := ih (eq_error_of_map run)
        refine ⟨c :: front, d, back, congrArg (c :: ·) split, ?_, missing, same⟩
        exact List.forall_mem_cons.mpr ⟨exists_encodeChar?_iff.mp ⟨bytes, found⟩, covered⟩
  · rintro ⟨front, c, back, rfl, covered, missing, rfl⟩
    obtain ⟨bytes, run⟩ := exists_encodeChars_iff.mpr covered
    rw [encodeChars_append, run, encodeChars_cons_of_none (encodeChar?_eq_none_iff.mpr missing)]
    rfl

/-! ## Units of sixteen bits -/

/-- No character has the number of a unit of a pair. -/
theorem toNat_not_surrogate (c : Char) :
    c.toNat < 0xD800 ∨ 0xDFFF < c.toNat ∧ c.toNat < 0x110000 :=
  c.valid

theorem units16_of_lt (small : c.toNat < 0x10000) : units16 c = [c.toNat] := if_pos small

theorem units16_of_le (large : 0x10000 ≤ c.toNat) :
    units16 c = [0xD800 + (c.toNat - 0x10000) / 0x400, 0xDC00 + (c.toNat - 0x10000) % 0x400] :=
  if_neg (Nat.not_lt.mpr large)

/-- A way to write units can be undone at the beginning of a text. -/
def Separates (code : Nat → List UInt8) : Prop :=
  ∀ unit other rest tail, unit < 0x10000 → other < 0x10000 →
    code unit ++ rest = code other ++ tail → unit = other ∧ rest = tail

theorem eq_of_ofNat {m n : Nat} (small : m < 256) (small' : n < 256)
    (same : UInt8.ofNat m = UInt8.ofNat n) : m = n := by
  have numbers := congrArg UInt8.toNat same
  simp only [UInt8.toNat_ofNat'] at numbers
  omega

/-- A unit is known by its low and its high byte. -/
theorem eq_of_bytes {unit other : Nat} (small : unit < 0x10000) (small' : other < 0x10000)
    (low : UInt8.ofNat (unit % 256) = UInt8.ofNat (other % 256))
    (high : UInt8.ofNat (unit / 256) = UInt8.ofNat (other / 256)) : unit = other := by
  have low := eq_of_ofNat (by omega) (by omega) low
  have high := eq_of_ofNat (by omega) (by omega) high
  omega

theorem separates_lowFirst : Separates lowFirst := by
  intro unit other rest tail small small' same
  simp only [lowFirst, List.cons_append, List.nil_append, List.cons.injEq] at same
  exact ⟨eq_of_bytes small small' same.1 same.2.1, same.2.2⟩

theorem separates_highFirst : Separates highFirst := by
  intro unit other rest tail small small' same
  simp only [highFirst, List.cons_append, List.nil_append, List.cons.injEq] at same
  exact ⟨eq_of_bytes small small' same.2.1 same.1, same.2.2⟩

/-- The units of a character are told apart from those of another one: the first unit of a pair is
no character, and the two units of a pair give the character back. -/
theorem eq_of_units16_append {code : Nat → List UInt8} (separates : Separates code)
    (same : (units16 c).flatMap code ++ rest = (units16 d).flatMap code ++ tail) : c = d := by
  have valid := toNat_not_surrogate c
  have valid' := toNat_not_surrogate d
  apply Char.toNat_inj.mp
  rcases Nat.lt_or_ge c.toNat 0x10000 with small | large
  · rw [units16_of_lt small] at same
    rcases Nat.lt_or_ge d.toNat 0x10000 with small' | large'
    · rw [units16_of_lt small'] at same
      simp only [List.flatMap_cons, List.flatMap_nil, List.append_nil] at same
      exact (separates _ _ _ _ small small' same).1
    · rw [units16_of_le large'] at same
      simp only [List.flatMap_cons, List.flatMap_nil, List.append_nil, List.append_assoc] at same
      have first := (separates _ _ _ _ small (by omega) same).1
      omega
  · rw [units16_of_le large] at same
    rcases Nat.lt_or_ge d.toNat 0x10000 with small' | large'
    · rw [units16_of_lt small'] at same
      simp only [List.flatMap_cons, List.flatMap_nil, List.append_nil, List.append_assoc] at same
      have first := (separates _ _ _ _ (by omega) small' same).1
      omega
    · rw [units16_of_le large'] at same
      simp only [List.flatMap_cons, List.flatMap_nil, List.append_nil, List.append_assoc] at same
      obtain ⟨first, later⟩ := separates _ _ _ _ (by omega) (by omega) same
      have second := (separates _ _ _ _ (by omega) (by omega) later).1
      omega

/-- The bytes of a text of units with the two bytes of each unit swapped. -/
def swapPairs : List UInt8 → List UInt8
  | first :: second :: rest => second :: first :: swapPairs rest
  | rest => rest

theorem swapPairs_lowFirst (units : List Nat) :
    swapPairs (units.flatMap lowFirst) = units.flatMap highFirst := by
  induction units with
  | nil => rfl
  | cons unit units ih =>
    rw [List.flatMap_cons, List.flatMap_cons, ← ih]
    rfl

/-- Every text is the bytes of its units, in either order of the bytes. -/
theorem encodeChars_units16 (chars : List Char) :
    utf16LowFirst.encodeChars chars = .ok ((chars.flatMap units16).flatMap lowFirst) ∧
    utf16HighFirst.encodeChars chars = .ok ((chars.flatMap units16).flatMap highFirst) := by
  induction chars with
  | nil => exact ⟨rfl, rfl⟩
  | cons c chars ih =>
    rw [encodeChars_cons_of_some rfl, encodeChars_cons_of_some rfl, ih.1, ih.2, List.flatMap_cons,
      List.flatMap_append, List.flatMap_append]
    exact ⟨rfl, rfl⟩

/-- A character beyond the first 65536 is written as a pair of units. -/
example : utf16LowFirst.encodeChars ['a', Char.ofNat 0x1F600] =
    .ok [0x61, 0x00, 0x3D, 0xD8, 0x00, 0xDE] := rfl

/-! ## Bytes that are told apart -/

theorem eq_of_utf8EncodeChar_append
    (same : String.utf8EncodeChar c ++ rest = String.utf8EncodeChar d ++ tail) : c = d := by
  have bytes := congrArg List.toByteArray same
  rw [List.toByteArray_append, List.toByteArray_append] at bytes
  apply Option.some.inj
  calc
    some c = ((String.utf8EncodeChar c).toByteArray ++ rest.toByteArray).utf8DecodeChar? 0 :=
      ByteArray.utf8DecodeChar?_utf8EncodeChar_append.symm
    _ = ((String.utf8EncodeChar d).toByteArray ++ tail.toByteArray).utf8DecodeChar? 0 := by
      rw [bytes]
    _ = some d := ByteArray.utf8DecodeChar?_utf8EncodeChar_append

/-- The bytes of a character begin the bytes of no other one. -/
theorem eq_of_encodeChar?_append {others : List UInt8} (first : encoding.encodeChar? c = some bytes)
    (second : encoding.encodeChar? d = some others) (same : bytes ++ rest = others ++ tail) :
    c = d := by
  cases encoding with
  | utf8 =>
    cases first
    cases second
    exact eq_of_utf8EncodeChar_append same
  | utf16LowFirst =>
    cases first
    cases second
    exact eq_of_units16_append separates_lowFirst same
  | utf16HighFirst =>
    cases first
    cases second
    exact eq_of_units16_append separates_highFirst same
  | latin1 | ascii =>
    obtain ⟨small, written⟩ := Option.ite_none_right_eq_some.mp first
    obtain ⟨small', written'⟩ := Option.ite_none_right_eq_some.mp second
    cases written
    cases written'
    apply Char.toNat_inj.mp
    exact eq_of_ofNat (by omega) (by omega) (List.cons.inj same).1

theorem encodeChar?_ne_nil (encoding : Encoding) (c : Char) : encoding.encodeChar? c ≠ some [] := by
  cases encoding with
  | utf8 => simp [encodeChar?]
  | utf16LowFirst | utf16HighFirst =>
    rw [encodeChar?, units16]
    split <;> simp [lowFirst, highFirst]
  | latin1 | ascii => simp [encodeChar?]

/-- Texts with the same bytes begin with the same character, and so on to the end. -/
theorem encodeChars_injective (first : encoding.encodeChars chars = .ok bytes)
    (second : encoding.encodeChars others = .ok bytes) : chars = others := by
  induction chars generalizing others bytes with
  | nil =>
    cases first
    cases others with
    | nil => rfl
    | cons d others =>
      obtain ⟨word, later, found, -, empty⟩ := encodeChars_cons_eq_ok_iff.mp second
      rw [(List.append_eq_nil_iff.mp empty).1] at found
      exact absurd found (encoding.encodeChar?_ne_nil d)
  | cons c chars ih =>
    obtain ⟨word, later, found, after, rfl⟩ := encodeChars_cons_eq_ok_iff.mp first
    cases others with
    | nil =>
      have empty := Except.ok.inj second
      rw [(List.append_eq_nil_iff.mp empty.symm).1] at found
      exact absurd found (encoding.encodeChar?_ne_nil c)
    | cons d others =>
      obtain ⟨word', later', found', after', same⟩ := encodeChars_cons_eq_ok_iff.mp second
      obtain rfl := eq_of_encodeChar?_append found found' same.symm
      obtain rfl := Option.some.inj (found.symm.trans found')
      obtain rfl := List.append_cancel_left same
      rw [ih after after']

/-! ## Plain texts -/

theorem encodeChars_of_single
    (single : ∀ c ∈ chars, encoding.encodeChar? c = some [UInt8.ofNat c.toNat]) :
    encoding.encodeChars chars = .ok (chars.map fun c => UInt8.ofNat c.toNat) := by
  induction chars with
  | nil => rfl
  | cons c chars ih =>
    obtain ⟨here, later⟩ := List.forall_mem_cons.mp single
    rw [encodeChars_cons_of_some here, ih later]
    rfl

/-- An encoding accepts a text exactly if it has every character of the text, and otherwise reports
the first one that it does not have.  Texts that it accepts are equal if their bytes are, and a text
made of two is written as the one and then the other.  Texts of the first 128 characters have the
same bytes in all three encodings that write them as single bytes, and the two encodings with units
of two bytes differ just in the order of the bytes of a unit. -/
theorem encode_lossless :
    (∀ (encoding : Encoding) (text : String),
      ((∃ bytes, encoding.encode text = .ok bytes) ↔ ∀ c ∈ text.toList, encoding.Covers c) ∧
      (∀ error, encoding.encode text = .error error ↔
        ∃ front c back, text.toList = front ++ c :: back ∧ (∀ d ∈ front, encoding.Covers d) ∧
          ¬ encoding.Covers c ∧ error = .unrepresentable c encoding) ∧
      (∀ other bytes, encoding.encode text = .ok bytes → encoding.encode other = .ok bytes →
        text = other) ∧
      ∀ other, encoding.encode (text ++ other) = (do
        let first ← encoding.encode text
        let second ← encoding.encode other
        return first ++ second)) ∧
    (∀ text : String, (∀ c ∈ text.toList, c.toNat ≤ 0x7F) →
      ∀ encoding ∈ [utf8, latin1, ascii],
        encoding.encode text = .ok (text.toList.map fun c => UInt8.ofNat c.toNat)) ∧
    ∀ text, utf16HighFirst.encode text = (utf16LowFirst.encode text).map swapPairs := by
  refine ⟨fun encoding text => ⟨exists_encodeChars_iff, fun error => encodeChars_eq_error_iff,
    fun other bytes first second => ?_, fun other => ?_⟩, fun text plain encoding member => ?_,
    fun text => ?_⟩
  · exact String.toList_injective (encodeChars_injective first second)
  · rw [encode, String.toList_append, encodeChars_append]
    rfl
  · refine encodeChars_of_single fun c within => ?_
    have small := plain c within
    simp only [List.mem_cons, List.not_mem_nil, or_false] at member
    rcases member with rfl | rfl | rfl
    · exact congrArg some (if_pos small)
    · exact if_pos (by omega)
    · exact if_pos (by omega)
  · rw [encode, encode, (encodeChars_units16 _).1, (encodeChars_units16 _).2]
    exact congrArg Except.ok (swapPairs_lowFirst _).symm

end Encoding
end SqlPipeline
