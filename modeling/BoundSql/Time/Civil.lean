/-! # Civil dates and times
* **`Date`** — a day of the Gregorian calendar, with its number counted from 1970-01-01.
* **`TimeOfDay`** — a time within a day, down to the nanosecond; a sixtieth second is admitted.
* **`Moment`** — a day and a time, with the nanoseconds since the start of 1970. -/

namespace BoundSql

/-- Whether a year has a leap day. -/
def isLeapYear (year : Int) : Bool :=
  year % 4 == 0 && (year % 100 != 0 || year % 400 == 0)

/-- The number of days of a month. -/
def daysInMonth (year : Int) (month : Nat) : Nat :=
  if month = 2 then if isLeapYear year then 29 else 28
  else if month = 4 ∨ month = 6 ∨ month = 9 ∨ month = 11 then 30
  else 31

/-- The first year a date can have. -/
def minYear : Int := -262143

/-- The last year a date can have. -/
def maxYear : Int := 262142

/-- A day of the Gregorian calendar. -/
structure Date where
  /-- The year; zero and negative ones count back from the year 1. -/
  year : Int
  /-- The month, from 1 on. -/
  month : Nat
  /-- The day of the month, from 1 on. -/
  day : Nat
  /-- The year can be represented. -/
  year_mem : minYear ≤ year ∧ year ≤ maxYear
  /-- The month exists. -/
  month_mem : 1 ≤ month ∧ month ≤ 12
  /-- The month has the day. -/
  day_mem : 1 ≤ day ∧ day ≤ daysInMonth year month
  deriving DecidableEq, Repr

namespace Date

/-- The date with the given parts, if there is one. -/
def ofParts? (year : Int) (month day : Nat) : Option Date :=
  if hy : minYear ≤ year ∧ year ≤ maxYear then
    if hm : 1 ≤ month ∧ month ≤ 12 then
      if hd : 1 ≤ day ∧ day ≤ daysInMonth year month then some ⟨year, month, day, hy, hm, hd⟩
      else none
    else none
  else none

/-- The number of days from 1970-01-01. Years are counted from March here, in cycles of 400, so
that the leap day ends a year. -/
def dayNumber (d : Date) : Int :=
  let year := if d.month ≤ 2 then d.year - 1 else d.year
  let cycle := year / 400
  let yearOfCycle := year % 400
  let month : Int := if d.month ≤ 2 then d.month + 9 else d.month - 3
  let dayOfYear := (153 * month + 2) / 5 + d.day - 1
  let dayOfCycle := yearOfCycle * 365 + yearOfCycle / 4 - yearOfCycle / 100 + dayOfYear
  cycle * 146097 + dayOfCycle - 719468

/-- The first date. -/
def first : Date := ⟨-262143, 1, 1, by decide, by decide, by decide⟩

/-- The last date. -/
def last : Date := ⟨262142, 12, 31, by decide, by decide, by decide⟩

end Date

/-- A time within a day. -/
structure TimeOfDay where
  /-- The hour. -/
  hour : Nat
  /-- The minute. -/
  minute : Nat
  /-- The second; 60 is a leap second. -/
  second : Nat
  /-- The nanosecond. -/
  nanosecond : Nat
  /-- The parts are in range. -/
  mem : hour < 24 ∧ minute < 60 ∧ second ≤ 60 ∧ nanosecond < 1000000000
  deriving DecidableEq, Repr

namespace TimeOfDay

/-- The time with the given parts, if there is one. -/
def ofParts? (hour minute second nanosecond : Nat) : Option TimeOfDay :=
  if h : hour < 24 ∧ minute < 60 ∧ second ≤ 60 ∧ nanosecond < 1000000000 then
    some ⟨hour, minute, second, nanosecond, h⟩
  else none

/-- The start of a day. -/
def midnight : TimeOfDay := ⟨0, 0, 0, 0, by decide⟩

/-- The nanoseconds since the start of the day. -/
def nanoseconds (t : TimeOfDay) : Nat :=
  ((t.hour * 60 + t.minute) * 60 + t.second) * 1000000000 + t.nanosecond

/-- The nanoseconds that a leap second adds to the time: a whole second within one. -/
def leapNanoseconds (t : TimeOfDay) : Nat := if t.second = 60 then 1000000000 else 0

end TimeOfDay

/-- A day and a time. -/
structure Moment where
  /-- The day. -/
  date : Date
  /-- The time. -/
  time : TimeOfDay
  deriving DecidableEq, Repr

/-- The nanoseconds of a day. -/
def nanosecondsPerDay : Int := 86400000000000

/-- The nanoseconds since the start of 1970. -/
def Moment.nanoseconds (m : Moment) : Int :=
  m.date.dayNumber * nanosecondsPerDay + m.time.nanoseconds

end BoundSql
