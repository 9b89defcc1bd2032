/-!
# Dates and times

Dates of the proleptic Gregorian calendar, with a time of day to the nanosecond and no time zone.
A `DateTime` carries the proof that its fields name an existing moment, so what is built from one
need not check again.

Days are counted from the first day of year 1, which is a Monday.
-/

namespace PhotoImport

/-- Whether February of a year has 29 days. -/
def isLeapYear (year : Int) : Bool :=
  year % 4 == 0 && (year % 100 != 0 || year % 400 == 0)

/-- The number of days in a month, which is counted from 1. -/
def daysIn (year : Int) (month : Nat) : Nat :=
  match month with
  | 2 => if isLeapYear year then 29 else 28
  | 4 | 6 | 9 | 11 => 30
  | _ => 31

/-- A date and a time of day. -/
structure DateTime where
  year : Int
  month : Nat
  day : Nat
  hour : Nat
  minute : Nat
  second : Nat
  nanosecond : Nat
  month_pos : 1 ≤ month
  month_le : month ≤ 12
  day_pos : 1 ≤ day
  day_le : day ≤ daysIn year month
  hour_lt : hour < 24
  minute_lt : minute < 60
  second_lt : second < 60
  nanosecond_lt : nanosecond < 1000000000
deriving DecidableEq

namespace DateTime

/-- The moment with the given fields, if there is one. -/
def make? (year : Int) (month day hour minute second nanosecond : Nat) : Option DateTime :=
  if h : 1 ≤ month ∧ month ≤ 12 ∧ 1 ≤ day ∧ day ≤ daysIn year month ∧ hour < 24 ∧ minute < 60 ∧
      second < 60 ∧ nanosecond < 1000000000 then
    some ⟨year, month, day, hour, minute, second, nanosecond, h.1, h.2.1, h.2.2.1, h.2.2.2.1,
      h.2.2.2.2.1, h.2.2.2.2.2.1, h.2.2.2.2.2.2.1, h.2.2.2.2.2.2.2⟩
  else none

/-- The number of the day within its year, counted from 1. -/
def ordinal (t : DateTime) : Nat :=
  (List.range (t.month - 1)).foldl (fun days m => days + daysIn t.year (m + 1)) t.day

/-- The number of days before the first day of a year. -/
def daysBeforeYear (year : Int) : Int :=
  let past := year - 1
  past * 365 + past / 4 - past / 100 + past / 400

/-- The day of the week, with 0 for Monday. -/
def weekday (t : DateTime) : Nat :=
  ((daysBeforeYear t.year + t.ordinal - 1) % 7).toNat

/-- The years in which moments can be told. -/
def yearLimit : Int := 9999

/-- The year, month and day that is `days` days after the first day of 1970. Years are counted from
March inside a cycle of 400 years, so that a leap day ends its year. -/
def civilOfDays (days : Int) : Int × Nat × Nat :=
  let shifted := days + 719468
  let cycle := shifted / 146097
  let dayOfCycle := shifted % 146097
  let yearOfCycle :=
    (dayOfCycle - dayOfCycle / 1460 + dayOfCycle / 36524 - dayOfCycle / 146096) / 365
  let dayOfYear := dayOfCycle - (365 * yearOfCycle + yearOfCycle / 4 - yearOfCycle / 100)
  let monthFromMarch := (5 * dayOfYear + 2) / 153
  let day := dayOfYear - (153 * monthFromMarch + 2) / 5 + 1
  let month := if monthFromMarch < 10 then monthFromMarch + 3 else monthFromMarch - 9
  let year := yearOfCycle + cycle * 400 + (if month ≤ 2 then 1 else 0)
  (year, month.toNat, day.toNat)

/-- The moment that lies the given time after the start of 1970, if its year can be told. -/
def ofUnix? (seconds nanoseconds : Int) : Option DateTime :=
  let whole := seconds + nanoseconds / 1000000000
  let second := whole % 86400
  let (year, month, day) := civilOfDays (whole / 86400)
  if -yearLimit ≤ year ∧ year ≤ yearLimit then
    make? year month day (second / 3600).toNat (second / 60 % 60).toNat (second % 60).toNat
      (nanoseconds % 1000000000).toNat
  else none

end DateTime
end PhotoImport
