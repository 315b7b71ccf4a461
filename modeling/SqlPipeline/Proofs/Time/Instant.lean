import Mathlib.Data.Nat.Digits.Defs
import SqlPipeline.Proofs.Number.Digits
import SqlPipeline.Proofs.Time.Calendar

/-!
# Reading instants back

Every instant within the bounds of the calendar is read back from its text, leap seconds included.
-/

namespace SqlPipeline.Instant

variable {digits rest : List Char} {most count n : Nat}

/-- An instant that the calendar knows. -/
structure IsValid (instant : Instant) : Prop where
  /-- Its year lies within the bounds. -/
  year : isYear (dateOfDays (instant.seconds.fdiv 86400)).1 = true
  /-- A leap second takes two seconds. -/
  nanos : instant.nanos < 2 * Nat.pow 10 9
  /-- A leap second is the last one of a minute. -/
  leap : Nat.pow 10 9 ≤ instant.nanos → instant.seconds % 60 = 59

instance (instant : Instant) : Decidable instant.IsValid :=
  decidable_of_iff
    (isYear (dateOfDays (instant.seconds.fdiv 86400)).1 = true ∧
      instant.nanos < 2 * Nat.pow 10 9 ∧
      (Nat.pow 10 9 ≤ instant.nanos → instant.seconds % 60 = 59))
    ⟨fun ⟨year, nanos, leap⟩ => ⟨year, nanos, leap⟩, fun ⟨year, nanos, leap⟩ => ⟨year, nanos, leap⟩⟩

/-! ## Padded numbers -/

theorem isDigit_of_mem_padded {c : Char} (member : c ∈ padded count n) : c.isDigit = true := by
  rcases List.mem_append.mp member with zero | digit
  · rw [List.eq_of_mem_replicate zero]
    rfl
  · exact isDigit_of_mem_decimalDigits digit

theorem padded_ne_nil : padded count n ≠ [] := by
  simp [padded, decimalDigits_ne_nil]

@[simp]
theorem ofDecimalDigits_padded : ofDecimalDigits (padded count n) = n := by
  rw [padded, ofDecimalDigits_zeros, ofDecimalDigits_decimalDigits]

theorem length_padded (positive : 0 < count) (small : n < 10 ^ count) :
    (padded count n).length = count := by
  have short : (decimalDigits n).length ≤ count := Nat.toDigits_length 10 n count positive small
  rw [padded, List.length_append, List.length_replicate]
  omega

/-! ## The parts of an instant -/

theorem isBlank_of_isDigit {c : Char} (digit : c.isDigit = true) : Text.isBlank c = false := by
  simp only [Char.isDigit, Bool.and_eq_true, decide_eq_true_eq] at digit
  obtain ⟨lower, upper⟩ := digit
  have least : 48 ≤ c.toNat := UInt32.le_iff_toNat_le.mp lower
  have greatest : c.toNat ≤ 57 := UInt32.le_iff_toNat_le.mp upper
  simp only [Text.isBlank, Bool.or_eq_false_iff, Bool.and_eq_false_iff, decide_eq_false_iff_not,
    beq_eq_false_iff_ne]
  omega

theorem skipBlanks_of_not {c : Char} (visible : Text.isBlank c = false) (rest : List Char) :
    skipBlanks (c :: rest) = c :: rest := by
  rw [skipBlanks, List.dropWhile_cons, visible]
  rfl

/-- A number is read up to what ends it, which is the greatest length that it may have or something
else than a digit. -/
theorem number?_digits (all : ∀ c ∈ digits, c.isDigit = true) (nonempty : digits ≠ [])
    (fits : digits.length ≤ most) (ends : digits.length = most ∨ StopsAt Char.isDigit rest) :
    number? most (digits ++ rest) = some (ofDecimalDigits digits, rest) := by
  have visible : skipBlanks (digits ++ rest) = digits ++ rest := by
    cases digits with
    | nil => exact absurd rfl nonempty
    | cons c digits => exact skipBlanks_of_not (isBlank_of_isDigit (all c List.mem_cons_self)) _
  have taken : ((digits ++ rest).take most).takeWhile Char.isDigit = digits := by
    rw [List.take_append, List.take_of_length_le fits, List.takeWhile_append_of_pos all]
    cases left : most - digits.length with
    | zero => simp
    | succ left =>
      cases rest with
      | nil => simp
      | cons c rest =>
        have other : c.isDigit = false := ends.resolve_left (by omega) c rfl
        simp [other]
  rw [number?, visible, taken, if_neg (by simpa using nonempty), List.drop_left]

/-- A number with a fixed count of digits is read back, whatever follows it. -/
theorem number?_padded (positive : 0 < count) (small : n < 10 ^ count) (rest : List Char) :
    number? count (padded count n ++ rest) = some (n, rest) := by
  have length := length_padded positive small
  rw [number?_digits (fun c => isDigit_of_mem_padded) padded_ne_nil length.le (.inl length),
    ofDecimalDigits_padded]

theorem mark?_self {mark : Char} (visible : Text.isBlank mark = false) (rest : List Char) :
    mark? mark (mark :: rest) = some rest := by
  rw [mark?, skipBlanks_of_not visible]
  simp

theorem exists_padded : ∃ first others, padded count n = first :: others ∧
    first.isDigit = true := by
  cases digits : padded count n with
  | nil => exact absurd digits padded_ne_nil
  | cons first others =>
    exact ⟨first, others, rfl, isDigit_of_mem_padded (digits ▸ List.mem_cons_self)⟩

theorem year?_of_isDigit {c : Char} (digit : c.isDigit = true) :
    year? (c :: rest) = (number? 4 (c :: rest)).map fun read => ((read.1 : Int), read.2) := by
  rw [year?, skipBlanks_of_not (isBlank_of_isDigit digit)]
  split
  next minus =>
    cases minus
    cases digit
  next plus =>
    cases plus
    cases digit
  · rfl

theorem year?_minus {c : Char} (digit : c.isDigit = true) :
    year? ('-' :: c :: rest) = (number? (rest.length + 1) (c :: rest)).map fun read =>
      (-1 * (read.1 : Int), read.2) := by
  rw [year?, skipBlanks_of_not rfl]
  simp [digit]

theorem year?_plus {c : Char} (digit : c.isDigit = true) :
    year? ('+' :: c :: rest) = (number? (rest.length + 1) (c :: rest)).map fun read =>
      (1 * (read.1 : Int), read.2) := by
  rw [year?, skipBlanks_of_not rfl]
  simp [digit]

/-- A year is read back before the mark that follows it. -/
theorem year?_yearText (year : Int) (rest : List Char) :
    year? (yearText year ++ '-' :: rest) = some (year, '-' :: rest) := by
  have stops : StopsAt Char.isDigit ('-' :: rest) := by
    rintro c ⟨⟩
    rfl
  have signed : number? (padded 4 year.natAbs ++ '-' :: rest).length
      (padded 4 year.natAbs ++ '-' :: rest) = some (year.natAbs, '-' :: rest) := by
    rw [number?_digits (fun c => isDigit_of_mem_padded) padded_ne_nil (by simp) (.inr stops),
      ofDecimalDigits_padded]
  obtain ⟨first, others, digits, digit⟩ := @exists_padded 4 year.natAbs
  rw [yearText]
  split_ifs with short negative
  · have same : year.toNat = year.natAbs := by omega
    have read := @number?_padded 4 year.natAbs (by omega) (by omega) ('-' :: rest)
    rw [same]
    rw [digits, List.cons_append] at read ⊢
    rw [year?_of_isDigit digit, read, Option.map_some]
    exact congrArg (fun y => some (y, '-' :: rest)) (by omega)
  · rw [digits, List.cons_append, List.length_cons] at signed
    rw [digits, List.cons_append, List.cons_append, year?_minus digit, signed, Option.map_some]
    exact congrArg (fun y => some (y, '-' :: rest)) (by omega)
  · rw [digits, List.cons_append, List.length_cons] at signed
    rw [digits, List.cons_append, List.cons_append, year?_plus digit, signed, Option.map_some]
    exact congrArg (fun y => some (y, '-' :: rest)) (by omega)

/-- A fraction of `3`, `6` or `9` digits is read back before something that is not a digit. -/
theorem nanos?_padded {scale : Nat} (positive : 0 < count) (nine : count ≤ 9)
    (small : n < 10 ^ count) (scale_eq : scale = Nat.pow 10 (9 - count))
    (stops : StopsAt Char.isDigit rest) :
    nanos? ('.' :: padded count n ++ rest) = some (n * scale, rest) := by
  have length := length_padded positive small
  have split := span_of_all (fun c => @isDigit_of_mem_padded count n c) stops
  have kept : (padded count n).take 9 = padded count n := List.take_of_length_le (by omega)
  rw [List.cons_append, nanos?, split]
  dsimp only
  rw [if_neg (by simpa using padded_ne_nil), kept, ofDecimalDigits_padded, length, scale_eq]

/-- Nanoseconds are read back before something that neither is a digit nor begins a fraction. -/
theorem nanos?_nanosText {nanos : Nat} (small : nanos < Nat.pow 10 9)
    (stops : StopsAt Char.isDigit rest) (point : ∀ others, rest ≠ '.' :: others) :
    nanos? (nanosText nanos ++ rest) = some (nanos, rest) := by
  rw [Nat.pow_eq] at small
  rw [nanosText]
  split_ifs with none milli micro
  · rw [none, List.nil_append, nanos?]
    exact point
  · rw [@nanos?_padded rest 3 _ 1000000 (by omega) (by omega) (by omega) rfl stops]
    exact congrArg (fun n => some (n, rest)) (by omega)
  · rw [@nanos?_padded rest 6 _ 1000 (by omega) (by omega) (by omega) rfl stops]
    exact congrArg (fun n => some (n, rest)) (by omega)
  · rw [@nanos?_padded rest 9 _ 1 (by omega) (by omega) (by omega) rfl stops, Nat.mul_one]

theorem isDate_dateOfDays {days : Int} (year : isYear (dateOfDays days).1 = true) :
    isDate (dateOfDays days).1 (dateOfDays days).2.1 (dateOfDays days).2.2 = true := by
  obtain ⟨leastMonth, greatestMonth⟩ := month_dateOfDays days
  have leastDay := (day_dateOfDays days).1
  simp only [isDate, daysOfDate_dateOfDays, year, leastMonth, greatestMonth, leastDay,
    decide_true, Bool.and_self, BEq.rfl]

/-- A time of a day in UTC is read back. -/
theorem parse?_parts {days : Int} {hour minute second nanos : Nat}
    (year : isYear (dateOfDays days).1 = true) (hours : hour < 24) (minutes : minute < 60)
    (seconds : second ≤ 60) (small : nanos < Nat.pow 10 9) :
    parse? (String.ofList (yearText (dateOfDays days).1 ++ ['-'] ++ padded 2 (dateOfDays days).2.1
        ++ ['-'] ++ padded 2 (dateOfDays days).2.2 ++ ['T'] ++ padded 2 hour ++ [':']
        ++ padded 2 minute ++ [':'] ++ padded 2 second ++ nanosText nanos ++ ['Z'])) =
      some ⟨days * 86400 + (hour * 3600 + minute * 60 + min second 59 : Nat),
        if second = 60 then nanos + Nat.pow 10 9 else nanos⟩ := by
  have two : ∀ {n : Nat}, n < 100 → ∀ rest, number? 2 (padded 2 n ++ rest) = some (n, rest) :=
    fun small => number?_padded (by omega) small
  have months : (dateOfDays days).2.1 < 100 := by have := month_dateOfDays days; omega
  have monthDays : (dateOfDays days).2.2 < 100 := by have := day_dateOfDays days; omega
  have stops : StopsAt Char.isDigit ['Z'] := by
    rintro c ⟨⟩
    rfl
  have dash : ∀ rest, mark? '-' ('-' :: rest) = some rest := mark?_self rfl
  have colon : ∀ rest, mark? ':' (':' :: rest) = some rest := mark?_self rfl
  have utc : skipBlanks ['Z'] = ['Z'] := rfl
  have fraction := nanos?_nanosText small stops (by simp)
  have day : (days * 86400 + (hour * 3600 + minute * 60 + min second 59 : Nat)).fdiv 86400 =
      days := by
    rw [Int.fdiv_eq_ediv_of_nonneg _ (by omega)]
    omega
  rw [parse?, String.toList_ofList]
  simp only [List.append_assoc, List.cons_append, List.nil_append]
  rw [year?_yearText]
  simp only [bind, Option.bind, dash, colon, fraction, utc, two months, two monthDays,
    two (show hour < 100 by omega), two (show minute < 100 by omega),
    two (show second < 100 by omega)]
  simp only [offset?, skipBlanks, List.dropWhile_nil, List.isEmpty_nil, isDate_dateOfDays year,
    hours, minutes, seconds, daysOfDate_dateOfDays, Int.sub_zero, day, year]
  rfl

/-- A valid instant is read back from its text. -/
theorem parse?_text {instant : Instant} (valid : instant.IsValid) :
    parse? instant.text = some instant := by
  obtain ⟨year, nanos, leap⟩ := valid
  obtain ⟨days, days_eq⟩ : ∃ days, days = instant.seconds.fdiv 86400 := ⟨_, rfl⟩
  obtain ⟨inDay, inDay_eq⟩ : ∃ inDay, inDay = (instant.seconds - days * 86400).toNat := ⟨_, rfl⟩
  have floor := Int.fdiv_eq_ediv_of_nonneg instant.seconds (show (0 : Int) ≤ 86400 by omega)
  have seconds : days * 86400 + (inDay / 3600 * 3600 + inDay / 60 % 60 * 60 + inDay % 60 : Nat) =
      instant.seconds := by omega
  have hours : inDay / 3600 < 24 := by omega
  have minutes : inDay / 60 % 60 < 60 := by omega
  rw [← days_eq] at year
  -- A leap second is written as second 60 of its minute and counts as second 59.
  by_cases isLeap : Nat.pow 10 9 ≤ instant.nanos
  · have last : inDay % 60 = 59 := by
      have ends := leap isLeap
      omega
    have read := @parse?_parts days (inDay / 3600) (inDay / 60 % 60) 60
      (instant.nanos - Nat.pow 10 9) year hours minutes (by omega) (by omega)
    have whole : instant.nanos - Nat.pow 10 9 + Nat.pow 10 9 = instant.nanos := by omega
    rw [last] at seconds
    rw [if_pos rfl, whole, show min 60 59 = 59 from rfl, seconds] at read
    rw [text, localText, ← days_eq]
    simp only [← inDay_eq, if_pos isLeap, last]
    exact read
  · have read := @parse?_parts days (inDay / 3600) (inDay / 60 % 60) (inDay % 60) instant.nanos
      year hours minutes (by omega) (by omega)
    have regular : inDay % 60 ≠ 60 := by omega
    have kept : min (inDay % 60) 59 = inDay % 60 := by omega
    rw [if_neg regular, kept, seconds] at read
    rw [text, localText, ← days_eq]
    simp only [← inDay_eq, if_neg isLeap]
    exact read

end SqlPipeline.Instant
