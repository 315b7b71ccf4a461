import Mathlib.Tactic.SplitIfs
import SqlPipeline.Time.Instant

/-!
# Days and dates

The date of a day leads back to the day.  Within an era of 400 years a day belongs to a century of
36524 days, the last of which is a day longer, and within that to four years of 1461 days.
-/

namespace SqlPipeline.Instant

/-- The year of a day within its era. -/
def yearOfEra (day : Nat) : Nat := (day - day / 1460 + day / 36524 - day / 146096) / 365

/-- The days of an era before a year. -/
def daysBefore (year : Nat) : Nat := 365 * year + year / 4 - year / 100

/-- The year of a day that is given by its century, its four years and the day within them. -/
theorem yearOfEra_eq {century four day : Nat} (centuries : century < 4) (days : day < 1461)
    (inside : 1461 * four + day < 36524) :
    ∃ year, yearOfEra (36524 * century + (1461 * four + day)) = 100 * century + 4 * four + year ∧
      year ≤ 3 ∧ 365 * year ≤ day ∧ day ≤ 365 * year + 365 := by
  -- The division by 1460 counts a day too many from some day of the last year on.
  obtain ⟨extra, counted, extra_eq⟩ : ∃ extra,
      (36524 * century + (1461 * four + day)) / 1460 = 25 * century + four + extra ∧
        extra = (24 * century + four + day) / 1460 := ⟨_, by omega, rfl⟩
  have hundreds : (36524 * century + (1461 * four + day)) / 36524 = century := by omega
  have last : (36524 * century + (1461 * four + day)) / 146096 = 0 := by omega
  have regular :
      36524 * century + (1461 * four + day) - (25 * century + four + extra) + century - 0 =
        365 * (100 * century + 4 * four) + (day - extra) := by omega
  refine ⟨(day - extra) / 365, ?_, by omega, by omega, by omega⟩
  rw [yearOfEra, counted, hundreds, last, regular]
  omega

/-- A day lies in its year. -/
theorem daysBefore_yearOfEra {day : Nat} (era : day < 146097) :
    yearOfEra day < 400 ∧ daysBefore (yearOfEra day) ≤ day ∧
      day < daysBefore (yearOfEra day) + 366 := by
  by_cases last : day = 146096
  · subst last
    decide
  obtain ⟨century, day, rfl, short⟩ : ∃ century rest, day = 36524 * century + rest ∧ rest < 36524 :=
    ⟨day / 36524, day % 36524, by omega, by omega⟩
  obtain ⟨four, day, rfl, days⟩ : ∃ four rest, day = 1461 * four + rest ∧ rest < 1461 :=
    ⟨day / 1461, day % 1461, by omega, by omega⟩
  obtain ⟨year, year_eq, years, lower, upper⟩ :=
    @yearOfEra_eq century four day (by omega) days short
  have fours : (100 * century + 4 * four + year) / 4 = 25 * century + four := by omega
  have hundreds : (100 * century + 4 * four + year) / 100 = century := by omega
  rw [year_eq, daysBefore, fours, hundreds]
  omega

/-- The date in a year of an era, with months that are counted from March and days from zero. -/
def dateAt (era : Int) (year month day : Nat) : Int × Nat × Nat :=
  if month < 10 then (year + era * 400, month + 3, day + 1)
  else (year + era * 400 + 1, month - 9, day + 1)

/-- Where a day and its date stand in an era. -/
theorem exists_dateAt (days : Int) : ∃ (era : Int) (year month day : Nat),
    year < 400 ∧ month < 12 ∧ day < 31 ∧ dateOfDays days = dateAt era year month day ∧
      days + 719468 = era * 146097 + (daysBefore year + ((153 * month + 2) / 5 + day) : Nat) := by
  have floor : (days + 719468).fdiv 146097 = (days + 719468) / 146097 :=
    Int.fdiv_eq_ediv_of_nonneg _ (by omega)
  obtain ⟨era, era_eq⟩ : ∃ era, era = (days + 719468) / 146097 := ⟨_, rfl⟩
  obtain ⟨inEra, inEra_eq⟩ : ∃ inEra, inEra = (days + 719468 - era * 146097).toNat := ⟨_, rfl⟩
  obtain ⟨years, lower, upper⟩ := daysBefore_yearOfEra (show inEra < 146097 by omega)
  obtain ⟨inYear, inYear_eq⟩ : ∃ inYear, inYear = inEra - daysBefore (yearOfEra inEra) := ⟨_, rfl⟩
  refine ⟨era, yearOfEra inEra, (5 * inYear + 2) / 153,
    inYear - (153 * ((5 * inYear + 2) / 153) + 2) / 5, years, by omega, by omega, ?_, by omega⟩
  have unfolded : dateOfDays days =
      (if (if (5 * inYear + 2) / 153 < 10 then (5 * inYear + 2) / 153 + 3
          else (5 * inYear + 2) / 153 - 9) ≤ 2
        then (yearOfEra inEra : Int) + era * 400 + 1 else yearOfEra inEra + era * 400,
        if (5 * inYear + 2) / 153 < 10 then (5 * inYear + 2) / 153 + 3
          else (5 * inYear + 2) / 153 - 9,
        inYear - (153 * ((5 * inYear + 2) / 153) + 2) / 5 + 1) := by
    rw [inYear_eq, inEra_eq, era_eq, ← floor]
    rfl
  rw [unfolded, dateAt]
  split_ifs
  all_goals first | rfl | omega

/-- The days up to a date that stands in a year of an era. -/
theorem daysOfDate_dateAt {year month : Nat} (years : year < 400) (months : month < 12)
    (era : Int) (day : Nat) :
    daysOfDate (dateAt era year month day).1 (dateAt era year month day).2.1
        (dateAt era year month day).2.2 + 719468 =
      era * 146097 + (daysBefore year + ((153 * month + 2) / 5 + day) : Nat) := by
  have floor : ((year : Int) + era * 400).fdiv 400 = era := by
    rw [Int.fdiv_eq_ediv_of_nonneg _ (by omega)]
    omega
  have inEra : ((year : Int) + era * 400 - era * 400).toNat = year := by omega
  rw [dateAt, daysBefore]
  split_ifs with spring
  · have late : ¬month + 3 ≤ 2 := by omega
    have counted : (month + 3 + 9) % 12 = month := by omega
    simp only [daysOfDate, if_neg late, floor, inEra, counted]
    omega
  · have early : month - 9 ≤ 2 := by omega
    have counted : (month - 9 + 9) % 12 = month := by omega
    have before : (year : Int) + era * 400 + 1 - 1 = year + era * 400 := by omega
    simp only [daysOfDate, if_pos early, before, floor, inEra, counted]
    omega

/-- The date of a day leads back to the day. -/
theorem daysOfDate_dateOfDays (days : Int) :
    daysOfDate (dateOfDays days).1 (dateOfDays days).2.1 (dateOfDays days).2.2 = days := by
  obtain ⟨era, year, month, day, years, months, -, date, days_eq⟩ := exists_dateAt days
  have back := daysOfDate_dateAt years months era day
  rw [date]
  omega

/-- Months are counted from 1 to 12. -/
theorem month_dateOfDays (days : Int) :
    1 ≤ (dateOfDays days).2.1 ∧ (dateOfDays days).2.1 ≤ 12 := by
  obtain ⟨era, year, month, day, -, months, -, date, -⟩ := exists_dateAt days
  rw [date, dateAt]
  split_ifs <;> dsimp only <;> omega

/-- Days are counted from 1 to at most 31. -/
theorem day_dateOfDays (days : Int) :
    1 ≤ (dateOfDays days).2.2 ∧ (dateOfDays days).2.2 ≤ 31 := by
  obtain ⟨era, year, month, day, -, -, inMonth, date, -⟩ := exists_dateAt days
  rw [date, dateAt]
  split_ifs <;> dsimp only <;> omega

end SqlPipeline.Instant
