/-!
# The calendar

The proleptic Gregorian calendar over all integer years. `Date.dayNumber` counts the days from
1970-01-01 and `Date.ofDayNumber` goes back; the count of days before a year is the one formula
with the three kinds of leap years, and the way back splits a day count into cycles of 400, 100, 4
years and single years.
-/

namespace QueryPrep

namespace Calendar

def IsLeap (year : Int) : Prop :=
  year % 4 = 0 ∧ (year % 100 ≠ 0 ∨ year % 400 = 0)

instance (year : Int) : Decidable (IsLeap year) :=
  inferInstanceAs (Decidable (_ ∧ _))

/-- The lengths of the months of a year, from January on. -/
def monthLengths (year : Int) : List Nat :=
  [31, if IsLeap year then 29 else 28, 31, 30, 31, 30, 31, 31, 30, 31, 30, 31]

/-- The days from 0001-01-01 to the first day of a year. -/
def daysBeforeYear (year : Int) : Int :=
  (year - 1) * 365 + (year - 1) / 4 - (year - 1) / 100 + (year - 1) / 400

/-- The days from 0001-01-01 to 1970-01-01. -/
def epochDay : Int := 719162

/-- The days of the first `count` months, where the lengths of the months are given. -/
def daysBefore : (count : Nat) → List Nat → Nat
  | 0, _ | _, [] => 0
  | count + 1, len :: lens => len + daysBefore count lens

/-- The month, counted from `month`, and the day of the month that lie `days` after the first of
`month`, where the lengths of the months from there on are given. -/
def monthAndDay (month : Nat) : List Nat → (days : Nat) → Nat × Nat
  | [], days => (month, days + 1)
  | len :: lens, days =>
    if days < len then (month, days + 1) else monthAndDay (month + 1) lens (days - len)

/-- The year in which the day lies that is `days` after 0001-01-01, and the days since its start. -/
def yearAndDay (days : Int) : Int × Int :=
  let inCycle := days % 146097
  let century := min (inCycle / 36524) 3
  let inCentury := inCycle - century * 36524
  let inLeapCycle := inCentury % 1461
  let yearOfFour := min (inLeapCycle / 365) 3
  (400 * (days / 146097) + 100 * century + 4 * (inCentury / 1461) + yearOfFour + 1,
    inLeapCycle - yearOfFour * 365)

end Calendar

open Calendar

/-- A day of the calendar. Months and days count from one. -/
structure Date where
  year : Int
  month : Nat
  day : Nat
deriving DecidableEq, Repr

namespace Date

/-- The dates that are in the calendar. -/
def Valid (d : Date) : Prop :=
  1 ≤ d.month ∧ d.month ≤ 12 ∧ 1 ≤ d.day ∧ d.day ≤ (monthLengths d.year).getD (d.month - 1) 0

instance (d : Date) : Decidable d.Valid :=
  inferInstanceAs (Decidable (_ ∧ _))

/-- The days from 1970-01-01 to a date. -/
def dayNumber (d : Date) : Int :=
  daysBeforeYear d.year + (daysBefore (d.month - 1) (monthLengths d.year) : Int) + (d.day - 1 : Int)
    - epochDay

/-- The date that many days after 1970-01-01. -/
def ofDayNumber (n : Int) : Date :=
  let (year, days) := yearAndDay (n + epochDay)
  let (month, day) := monthAndDay 1 (monthLengths year) days.toNat
  ⟨year, month, day⟩

end Date

/-- An instant in calendar terms, in UTC. The second may be 60, as on a day with a leap second. -/
structure Moment where
  date : Date
  hour : Nat
  minute : Nat
  second : Nat
  millis : Nat
deriving DecidableEq, Repr

namespace Moment

/-- The milliseconds from 1970-01-01T00:00:00Z. A second 60 is the first of the next minute. -/
def epochMillis (m : Moment) : Int :=
  (m.date.dayNumber * 86400 + m.hour * 3600 + m.minute * 60 + m.second) * 1000 + m.millis

/-- The instant that many milliseconds after 1970-01-01T00:00:00Z. -/
def ofEpochMillis (n : Int) : Moment :=
  let inDay := (n % 86400000).toNat
  { date := .ofDayNumber (n / 86400000)
    hour := inDay / 3600000
    minute := inDay / 60000 % 60
    second := inDay / 1000 % 60
    millis := inDay % 1000 }

end Moment

end QueryPrep
