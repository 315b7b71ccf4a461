import Mathlib.Data.List.TakeDrop
import Mathlib.Data.List.TakeWhile
import SqlPipeline.Number.Decimal

/-!
# Reading decimal digits

The digits of a number are read back as the number, also with zeros in front of them, and a run of
digits ends where something else begins.
-/

namespace SqlPipeline

variable {p : Char → Bool} {digits text rest : List Char}

/-- Nothing of a kind stands at the front of a text. -/
def StopsAt (p : Char → Bool) (text : List Char) : Prop := ∀ c ∈ text.head?, p c = false

/-- A run of characters does not go on in what follows if that begins with another one. -/
theorem span_append (stops : StopsAt p rest) (text : List Char) :
    (text ++ rest).span p = ((text.span p).1, (text.span p).2 ++ rest) := by
  simp only [List.span_eq_takeWhile_dropWhile]
  induction text with
  | nil =>
    cases rest with
    | nil => rfl
    | cons c rest => simp [stops c rfl]
  | cons c text ih =>
    obtain ⟨taken, dropped⟩ := Prod.mk.inj ih
    by_cases here : p c = true
    · simp [here, taken, dropped]
    · simp [here]

theorem span_of_all (all : ∀ c ∈ digits, p c = true) (stops : StopsAt p rest) :
    (digits ++ rest).span p = (digits, rest) := by
  rw [span_append stops, List.span_eq_takeWhile_dropWhile, List.takeWhile_eq_self_iff.mpr all,
    List.dropWhile_eq_nil_iff.mpr all, List.nil_append]

theorem ofDecimalDigits_eq (digits : List Char) :
    ofDecimalDigits digits = Nat.ofDigitChars 10 digits 0 := by
  rw [ofDecimalDigits, Nat.ofDigitChars_eq_foldl]
  rfl

@[simp]
theorem ofDecimalDigits_decimalDigits (n : Nat) : ofDecimalDigits (decimalDigits n) = n := by
  rw [ofDecimalDigits_eq, decimalDigits, Nat.ofDigitChars_ten_toDigits]

theorem isDigit_of_mem_decimalDigits {n : Nat} {c : Char} (member : c ∈ decimalDigits n) :
    c.isDigit = true :=
  Nat.isDigit_of_mem_toDigits (by decide) (by decide) member

theorem decimalDigits_ne_nil (n : Nat) : decimalDigits n ≠ [] := Nat.toDigits_ne_nil

/-- The first digit is not zero if others follow it. -/
theorem head_decimalDigits {n : Nat} {first second : Char}
    (digits_eq : decimalDigits n = first :: second :: rest) : first ≠ '0' := by
  induction n using Nat.strongRecOn generalizing rest second with
  | ind n ih =>
    rw [decimalDigits, Nat.toDigits_eq_if (by decide)] at digits_eq
    split at digits_eq
    · simp at digits_eq
    next large =>
      cases shorter : decimalDigits (n / 10) with
      | nil => exact absurd shorter (decimalDigits_ne_nil _)
      | cons c others =>
        rw [decimalDigits] at shorter
        rw [shorter] at digits_eq
        obtain rfl : c = first := by simpa using congrArg List.head? digits_eq
        cases others with
        | cons d others => exact ih (n / 10) (by omega) shorter
        | nil =>
          rintro rfl
          have value := ofDecimalDigits_decimalDigits (n / 10)
          rw [decimalDigits, shorter] at value
          have zero : ofDecimalDigits ['0'] = 0 := by decide
          omega

theorem ofDecimalDigits_zeros (count : Nat) (digits : List Char) :
    ofDecimalDigits (List.replicate count '0' ++ digits) = ofDecimalDigits digits := by
  rw [ofDecimalDigits_eq, Nat.ofDigitChars_append, Nat.ofDigitChars_replicate_zero, Nat.mul_zero,
    ofDecimalDigits_eq]

end SqlPipeline
