import Mathlib.Algebra.Group.Int.Defs
import Mathlib.Tactic.SplitIfs
import SqlPipeline.Json.Parser
import SqlPipeline.Json.Printer
import SqlPipeline.Proofs.Number.Digits

/-!
# Strings and numbers in JSON

Every string is read back from its text, whatever it holds, and so is every integer of 64 bits.  A
number is read in the same way whether or not a comma, a closing bracket or a blank follows it.
-/

namespace SqlPipeline.Json

variable {text rest : List Char} {n : Number} {value : Option Number}

/-! ## Strings -/

theorem hexNumber?_byteDigits {n : Nat} (control : n < 32) :
    Text.hexNumber? (['0', '0'] ++ Text.byteDigits (UInt8.ofNat n)) = some n := by
  have all : ∀ n < 32,
      Text.hexNumber? (['0', '0'] ++ Text.byteDigits (UInt8.ofNat n)) = some n := by
    decide
  exact all n control

theorem stringChar?_escape {c : Char} {code : Nat} (char : c.toNat = code) (control : code < 32)
    (rest : List Char) :
    stringChar? (['\\', 'u', '0', '0'] ++ Text.byteDigits (UInt8.ofNat code) ++ rest) =
      some (some c, rest) := by
  have digits : ∀ rest, Text.fourHex? (['0', '0'] ++ Text.byteDigits (UInt8.ofNat code) ++ rest) =
      some (code, rest) := by
    intro rest
    have number := hexNumber?_byteDigits control
    simp only [Text.byteDigits, List.cons_append, List.nil_append] at number ⊢
    rw [Text.fourHex?, number]
    rfl
  have read : Text.unicodeEscape? Text.fourHex?
      (['0', '0'] ++ Text.byteDigits (UInt8.ofNat code) ++ rest) = some (c, rest) := by
    rw [Text.unicodeEscape?, digits]
    have low : ¬(0xDC00 ≤ code ∧ code ≤ 0xDFFF) := by omega
    have high : ¬(0xD800 ≤ code ∧ code ≤ 0xDBFF) := by omega
    simp only [bind, Option.bind, if_neg low, if_neg high]
    rw [← char, Char.ofNat_toNat]
  simp only [List.cons_append, List.nil_append] at digits read ⊢
  simp only [stringChar?, digits, read]
  rfl

theorem stringChar?_of_plain {c : Char} (backslash : c ≠ '\\') (control : ¬c.toNat < 32)
    (rest : List Char) : stringChar? (c :: rest) = some (some c, rest) := by
  rw [stringChar?, if_neg control]
  all_goals simp [backslash]

/-- A character is read back from its place in a string. -/
theorem stringChar?_stringChar (c : Char) (rest : List Char) :
    stringChar? (stringChar c ++ rest) = some (some c, rest) := by
  have named : ∀ code : Nat, c.toNat = code → c = Char.ofNat code := by
    rintro code rfl
    exact (Char.ofNat_toNat c).symm
  rw [stringChar]
  split_ifs with quote backslash backspace tab newline feed carriage control
  · rw [quote]; rfl
  · rw [backslash]; rfl
  · rw [named 8 backspace]; rfl
  · rw [named 9 tab]; rfl
  · rw [named 10 newline]; rfl
  · rw [named 12 feed]; rfl
  · rw [named 13 carriage]; rfl
  · exact stringChar?_escape rfl control rest
  · exact stringChar?_of_plain backslash control rest

/-- What is written for a character does not begin with a quote, so that it does not close the
string. -/
theorem exists_stringChar (c : Char) : ∃ first others,
    stringChar c = first :: others ∧ first ≠ '"' := by
  rw [stringChar]
  split_ifs with quote
  case neg => exact ⟨c, [], rfl, quote⟩
  all_goals exact ⟨'\\', _, rfl, by decide⟩

theorem stringTail?_of_ne {fuel : Nat} {first : Char} (apart : first ≠ '"') :
    stringTail? (fuel + 1) (first :: text) =
      (stringChar? (first :: text)).bind fun front =>
        (stringTail? fuel front.2).bind fun tail =>
          some (front.1.bind fun c => tail.1.bind fun chars => some (c :: chars), tail.2) := by
  rw [stringTail?]
  · rfl
  · simpa using apart

/-- A string is read back from its text, whatever follows its quote. -/
theorem stringTail?_chars (chars rest : List Char) {fuel : Nat} (enough : chars.length < fuel) :
    stringTail? fuel (chars.flatMap stringChar ++ '"' :: rest) = some (some chars, rest) := by
  induction chars generalizing fuel with
  | nil =>
    obtain ⟨fuel, rfl⟩ := Nat.exists_eq_add_of_lt enough
    rfl
  | cons c chars ih =>
    obtain ⟨fuel, rfl⟩ : ∃ less, fuel = less + 1 := ⟨fuel - 1, by omega⟩
    obtain ⟨first, others, text, apart⟩ := exists_stringChar c
    have read := stringChar?_stringChar c (chars.flatMap stringChar ++ '"' :: rest)
    rw [text] at read
    rw [List.flatMap_cons, List.append_assoc, text, List.cons_append, stringTail?_of_ne apart,
      ← List.cons_append, read]
    simp only [List.length_cons] at enough
    have shorter : chars.length < fuel := by omega
    simp [ih shorter]

theorem length_le_flatMap_stringChar (chars : List Char) :
    chars.length ≤ (chars.flatMap stringChar).length := by
  induction chars with
  | nil => simp
  | cons c chars ih =>
    obtain ⟨first, others, text, -⟩ := exists_stringChar c
    rw [List.flatMap_cons, text]
    simp only [List.length_append, List.length_cons]
    omega

/-! ## Numbers -/

/-- Whether a character may go on with a number. -/
def extendsNumber (c : Char) : Bool := c.isDigit || c == '.' || c == 'e' || c == 'E'

theorem stopsAt_isDigit (stops : StopsAt extendsNumber rest) : StopsAt Char.isDigit rest := by
  intro c front
  have none := stops c front
  simp only [extendsNumber, Bool.or_eq_false_iff] at none
  exact none.1.1.1

theorem ne_cons_of_stopsAt (stops : StopsAt extendsNumber rest) {mark : Char}
    (goesOn : extendsNumber mark = true) (others : List Char) : rest ≠ mark :: others := by
  rintro rfl
  rw [stops mark rfl] at goesOn
  cases goesOn

theorem exponentDigits?_append {power : Int} (stops : StopsAt Char.isDigit rest) (negative : Bool)
    (read : exponentDigits? negative text = some (power, [])) :
    exponentDigits? negative (text ++ rest) = some (power, rest) := by
  rw [exponentDigits?] at read ⊢
  rw [span_append stops]
  dsimp only at read ⊢
  split at read
  · cases read
  next digits =>
    rw [if_neg digits]
    obtain ⟨value, left⟩ := Prod.mk.inj (Option.some.inj read)
    rw [value, left, List.nil_append]

theorem signedExponent?_append {power : Int} (stops : StopsAt Char.isDigit rest)
    (read : signedExponent? text = some (power, [])) :
    signedExponent? (text ++ rest) = some (power, rest) := by
  unfold signedExponent? at read
  split at read
  · exact exponentDigits?_append stops true read
  · exact exponentDigits?_append stops false read
  next minus plus =>
    have digits := exponentDigits?_append stops false read
    cases text with
    | nil => cases read
    | cons c text =>
      rw [List.cons_append, signedExponent?]
      · exact digits
      · rintro _ _
        simp_all
      · simp_all

theorem exponent?_append {power : Int} (stops : StopsAt extendsNumber rest)
    (read : exponent? text = some (power, [])) : exponent? (text ++ rest) = some (power, rest) := by
  unfold exponent? at read
  split at read
  · exact signedExponent?_append (stopsAt_isDigit stops) read
  · exact signedExponent?_append (stopsAt_isDigit stops) read
  · obtain ⟨rfl, rfl⟩ := Prod.mk.inj (Option.some.inj read)
    rw [List.nil_append, exponent?]
    · exact ne_cons_of_stopsAt stops (by decide)
    · exact ne_cons_of_stopsAt stops (by decide)

theorem afterWhole?_append (stops : StopsAt extendsNumber rest) (negative : Bool)
    (whole : List Char) (read : afterWhole? negative whole text = some (value, [])) :
    afterWhole? negative whole (text ++ rest) = some (value, rest) := by
  cases text with
  | nil =>
    have unmarked : (rest.head?.any fun c => c == 'e' || c == 'E') = false := by
      cases rest with
      | nil => rfl
      | cons c rest =>
        have none := stops c rfl
        simp only [extendsNumber, Bool.or_eq_false_iff] at none
        simp [none]
    have power : exponent? rest = some (0, rest) := @exponent?_append [] rest 0 stops rfl
    rw [List.nil_append, afterWhole?, unmarked, power]
    · obtain ⟨rfl, -⟩ := Prod.mk.inj (Option.some.inj read)
      rfl
    · exact ne_cons_of_stopsAt stops (by decide)
  | cons c text =>
    by_cases point : c = '.'
    · subst point
      rw [afterWhole?] at read
      rw [List.cons_append, afterWhole?, span_append (stopsAt_isDigit stops)]
      dsimp only at read ⊢
      split at read
      · cases read
      next fraction =>
        obtain ⟨⟨power, left⟩, exponent, same⟩ := Option.map_eq_some_iff.mp read
        obtain ⟨rfl, rfl⟩ := Prod.mk.inj same
        rw [if_neg fraction, exponent?_append stops exponent]
        rfl
    · have other : ∀ others, c :: text ≠ '.' :: others := by simp [point]
      have other' : ∀ others, c :: (text ++ rest) ≠ '.' :: others := by simp [point]
      rw [afterWhole?] at read
      · rw [List.cons_append, afterWhole?]
        · obtain ⟨⟨power, left⟩, exponent, same⟩ := Option.map_eq_some_iff.mp read
          obtain ⟨rfl, rfl⟩ := Prod.mk.inj same
          rw [← List.cons_append, exponent?_append stops exponent]
          rfl
        · exact other'
      · exact other

theorem unsigned?_append (stops : StopsAt extendsNumber rest) (negative : Bool)
    (read : unsigned? negative text = some (value, [])) :
    unsigned? negative (text ++ rest) = some (value, rest) := by
  rw [unsigned?] at read ⊢
  rw [span_append (stopsAt_isDigit stops)]
  dsimp only at read ⊢
  split at read
  next whole =>
    rw [if_pos whole]
    exact afterWhole?_append stops negative _ read
  next => cases read

/-- A number that is read to its end is read in the same way where something else follows. -/
theorem number?_append (stops : StopsAt extendsNumber rest)
    (read : number? text = some (value, [])) : number? (text ++ rest) = some (value, rest) := by
  cases text with
  | nil => cases read
  | cons c text =>
    by_cases minus : c = '-'
    · subst minus
      exact unsigned?_append stops true read
    · rw [number?] at read
      · rw [List.cons_append, number?]
        · exact unsigned?_append stops false read
        · simp [minus]
      · simp [minus]

/-- A number begins with its sign or a digit. -/
theorem exists_of_number? {result : Option Number × List Char} (read : number? text = some result) :
    ∃ first others, text = first :: others ∧ (first = '-' ∨ first.isDigit = true) := by
  cases text with
  | nil => cases read
  | cons c text =>
    refine ⟨c, text, rfl, ?_⟩
    by_cases minus : c = '-'
    · exact .inl minus
    · right
      rw [number?] at read
      · by_contra other
        rw [unsigned?, List.span_eq_takeWhile_dropWhile, List.takeWhile_cons_of_neg other] at read
        cases read
      · simp [minus]

/-- A number is read back from its text. -/
def Number.ReadsBack (n : Number) : Prop := number? (numberChars n) = some (some n, [])

instance : DecidablePred Number.ReadsBack := fun n =>
  inferInstanceAs (Decidable (number? (numberChars n) = some (some n, [])))

theorem isWhole_decimalDigits (n : Nat) : isWhole (decimalDigits n) = true := by
  match digits : decimalDigits n with
  | [] => exact absurd digits (decimalDigits_ne_nil n)
  | [c] => simp [isWhole]
  | first :: second :: rest =>
    have nonzero := head_decimalDigits digits
    simp [isWhole, nonzero]

theorem unsigned?_decimalDigits (negative : Bool) (n : Nat) :
    unsigned? negative (decimalDigits n) =
      some (wholeNumber? negative (decimalDigits n), []) := by
  have all : ∀ c ∈ decimalDigits n, c.isDigit = true := fun c => isDigit_of_mem_decimalDigits
  have split := @span_of_all _ _ [] all (by simp [StopsAt])
  rw [List.append_nil] at split
  rw [unsigned?, split]
  dsimp only
  rw [if_pos (isWhole_decimalDigits n)]
  rfl

/-- The integers of 64 bits, with or without a sign, are read back. -/
theorem readsBack_integer {n : Int} (least : -(2 ^ 63 : Int) ≤ n) (greatest : n < 2 ^ 64) :
    (Number.integer n).ReadsBack := by
  rw [Number.ReadsBack, numberChars, intChars]
  by_cases negative : n < 0
  · have value : 0 < n.natAbs ∧ n.natAbs ≤ Nat.pow 2 63 := by
      constructor
      · omega
      · rw [Nat.pow_eq]
        omega
    have same : -(n.natAbs : Int) = n := by omega
    rw [if_pos negative, List.singleton_append, number?, unsigned?_decimalDigits, wholeNumber?,
      ofDecimalDigits_decimalDigits, if_pos rfl, if_pos value, same]
  · have value : n.natAbs < Nat.pow 2 64 := by
      rw [Nat.pow_eq]
      omega
    have same : (n.natAbs : Int) = n := by omega
    have unsigned : ∀ rest, decimalDigits n.natAbs ≠ '-' :: rest := by
      intro rest minus
      have digit : '-'.isDigit = true :=
        isDigit_of_mem_decimalDigits (minus ▸ List.mem_cons_self)
      cases digit
    rw [if_neg negative, List.nil_append, number?, unsigned?_decimalDigits, wholeNumber?,
      ofDecimalDigits_decimalDigits, if_neg (by simp), if_pos value, same]
    exact unsigned

/-- A number that is read back is finite. -/
theorem isFinite_of_readsBack {x : Binary64} (reads : (Number.real x).ReadsBack) :
    x.isFinite = true := by
  by_contra infinite
  rw [Number.ReadsBack, numberChars, if_neg infinite] at reads
  cases reads

end SqlPipeline.Json
