import Mathlib.Tactic.Common

/-!
# Dates

The clock that both mocks read, the dates that their messages carry, and which of these are
values of `xs:dateTime`.

Main results:

- Theorem `valid_newXMLGregorianCalendar`: what is read off the clock is valid.
- Theorem `plusYears_day`: the day of a date some years later.
- Theorem `leapDay_plusYears_five`: a leap day has no counterpart five years later.
-/

namespace Jvm

/-- A leap year of the Gregorian calendar. -/
def isLeapYear (year : Int) : Bool :=
  year % 4 = 0 && (year % 100 ≠ 0 || year % 400 = 0)

/-- The number of days in a month. -/
def daysInMonth (year : Int) (month : Nat) : Nat :=
  if month = 2 then if isLeapYear year then 29 else 28
  else if month = 4 ∨ month = 6 ∨ month = 9 ∨ month = 11 then 30
  else 31

/-- No month is shorter than February. -/
theorem daysInMonth_ge (year : Int) (month : Nat) : 28 ≤ daysInMonth year month := by
  unfold daysInMonth
  split
  · split <;> omega
  · split <;> omega

/-! ## Dates in messages -/

/-- An `XMLGregorianCalendar`, with the digits behind the point of a second and the offset of
the time zone in minutes. -/
structure XMLGregorianCalendar where
  year : Int
  month : Nat
  day : Nat
  hour : Nat
  minute : Nat
  second : Nat
  fraction : List (Fin 10)
  timezone : Option Int
deriving DecidableEq

/-- A value of `xs:dateTime`: a date that exists and a time of that day. -/
structure XMLGregorianCalendar.Valid (c : XMLGregorianCalendar) : Prop where
  year : c.year ≠ 0
  month : 1 ≤ c.month ∧ c.month ≤ 12
  day : 1 ≤ c.day ∧ c.day ≤ daysInMonth c.year c.month
  time : c.hour < 24 ∧ c.minute < 60 ∧ c.second < 60
  timezone : ∀ minutes, c.timezone = some minutes → -840 ≤ minutes ∧ minutes ≤ 840

/-! ## The clock -/

/-- `ZonedDateTime.now(ZoneOffset.UTC)`, on a clock that is set to a date of the common
era. -/
structure ZonedDateTime where
  year : Int
  month : Nat
  day : Nat
  hour : Nat
  minute : Nat
  second : Nat
  nano : Nat
  year_pos : 0 < year
  month_range : 1 ≤ month ∧ month ≤ 12
  day_range : 1 ≤ day ∧ day ≤ daysInMonth year month
  time_range : hour < 24 ∧ minute < 60 ∧ second < 60

/-- `ZonedDateTime.plusYears`, which takes the last day of the month when the day does not
exist. -/
def ZonedDateTime.plusYears (utc : ZonedDateTime) (years : Nat) : ZonedDateTime :=
  { utc with
    year := utc.year + years
    day := min utc.day (daysInMonth (utc.year + years) utc.month)
    year_pos := by
      have hpos := utc.year_pos
      omega
    day_range := by
      have hday := utc.day_range.1
      have hlength := daysInMonth_ge (utc.year + years) utc.month
      omega }

/-- The last decimal digit. -/
def digit (n : Nat) : Fin 10 :=
  ⟨n % 10, Nat.mod_lt n (by decide)⟩

/-- `newXMLGregorianCalendar(GregorianCalendar.from(utc))`, which counts milliseconds. -/
def newXMLGregorianCalendar (utc : ZonedDateTime) : XMLGregorianCalendar where
  year := utc.year
  month := utc.month
  day := utc.day
  hour := utc.hour
  minute := utc.minute
  second := utc.second
  fraction :=
    [digit (utc.nano / 100000000), digit (utc.nano / 10000000), digit (utc.nano / 1000000)]
  timezone := some 0

/-- What is read off the clock is a value of `xs:dateTime`. -/
theorem valid_newXMLGregorianCalendar (utc : ZonedDateTime) :
    (newXMLGregorianCalendar utc).Valid where
  year := by
    have hpos := utc.year_pos
    show utc.year ≠ 0
    omega
  month := utc.month_range
  day := utc.day_range
  time := utc.time_range
  timezone minutes h := by
    obtain rfl := Option.some.inj h
    decide

/-- The day of a date some years later is the same, except that a leap day becomes the day
before when the year is no leap year. -/
theorem plusYears_day (utc : ZonedDateTime) (years : Nat) :
    (utc.plusYears years).day = utc.day ∨
      (utc.month = 2 ∧ utc.day = 29 ∧ (utc.plusYears years).day = 28 ∧
        isLeapYear (utc.year + years) = false) := by
  have hday := utc.day_range.2
  unfold ZonedDateTime.plusYears
  simp only
  by_cases hfebruary : utc.month = 2
  · simp only [daysInMonth, hfebruary, if_true] at hday ⊢
    cases hleap : isLeapYear (utc.year + years) with
    | true =>
        left
        simp only [if_true]
        split at hday <;> omega
    | false =>
        simp only [Bool.false_eq_true, if_false]
        by_cases h29 : utc.day = 29
        · exact Or.inr ⟨trivial, h29, by omega, trivial⟩
        · left
          split at hday <;> omega
  · left
    simp only [daysInMonth, if_neg hfebruary] at hday ⊢
    exact Nat.min_eq_left hday

/-- A leap day has no counterpart five years later. -/
theorem leapDay_plusYears_five (utc : ZonedDateTime) (hmonth : utc.month = 2)
    (hday : utc.day = 29) : (utc.plusYears 5).day = 28 := by
  have hleap : isLeapYear utc.year = true := by
    by_contra hleap
    have hlast := utc.day_range.2
    simp [daysInMonth, hmonth, hleap, hday] at hlast
  have hlater : isLeapYear (utc.year + 5) = false := by
    simp only [isLeapYear, Bool.and_eq_true, decide_eq_true_eq] at hleap
    have hmod : ¬ (utc.year + 5) % 4 = 0 := by omega
    simp [isLeapYear, hmod]
  simp [ZonedDateTime.plusYears, daysInMonth, hmonth, hday, hlater]

end Jvm
