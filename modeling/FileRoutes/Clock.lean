/-! # Instants and dates

An **instant** is a number of milliseconds since the start of 1970 in universal time. It is written
as date and time of the Gregorian calendar (`Instant.text`), without its milliseconds. The calendar
is counted in eras of 400 years that begin on the first of March, so that the leap day is the last
of its year (`Date.ofDayNumber`); `Date.dayNumber` counts back. What the clock of some zone shows
(`ZonedTime`) is written in universal time too (`ZonedTime.text`). -/

namespace FileRoutes

/-- A **date** of the Gregorian calendar. -/
structure Date where
  /-- The year. -/
  year : Int
  /-- The month, from 1 to 12. -/
  month : Nat
  /-- The day of the month, from 1 on. -/
  day : Nat
  deriving DecidableEq, Repr

namespace Date

/-- The days of an era of 400 years. -/
def daysOfEra : Nat := 146097

/-- The day number, in an era that begins in March, at which 1970 starts. -/
def epochDay : Int := 719468

/-- The date of a day, counted from the start of 1970. -/
def ofDayNumber (number : Int) : Date :=
  let shifted := number + epochDay
  let era := shifted / (daysOfEra : Int)
  let day := (shifted % (daysOfEra : Int)).toNat
  let year := (day - day / 1460 + day / 36524 - day / 146096) / 365
  let dayOfYear := day - (365 * year + year / 4 - year / 100)
  let marchMonth := (5 * dayOfYear + 2) / 153
  let month := if marchMonth < 10 then marchMonth + 3 else marchMonth - 9
  { year := era * 400 + year + (if month ≤ 2 then 1 else 0)
    month
    day := dayOfYear - (153 * marchMonth + 2) / 5 + 1 }

/-- The number of the day of a date, counted from the start of 1970. -/
def dayNumber (date : Date) : Int :=
  let year := if date.month ≤ 2 then date.year - 1 else date.year
  let era := year / 400
  let yearOfEra := (year % 400).toNat
  let marchMonth := if date.month ≤ 2 then date.month + 9 else date.month - 3
  let dayOfYear := (153 * marchMonth + 2) / 5 + date.day - 1
  let dayOfEra := 365 * yearOfEra + yearOfEra / 4 - yearOfEra / 100 + dayOfYear
  era * (daysOfEra : Int) + dayOfEra - epochDay

end Date

/-- Milliseconds since the start of 1970 in universal time. -/
abbrev Instant := Int

namespace Instant

/-- The seconds of a day. -/
def secondsOfDay : Int := 86400

/-- A number in decimal, filled up with zeros to two digits. -/
def twoDigits (value : Nat) : String :=
  if value < 10 then "0" ++ toString value else toString value

/-- Date and time of an instant in universal time, whatever zone it was given in. -/
def text (instant : Instant) : String :=
  let seconds := instant / 1000
  let date := Date.ofDayNumber (seconds / secondsOfDay)
  let time := (seconds % secondsOfDay).toNat
  toString date.year ++ "-" ++ twoDigits date.month ++ "-" ++ twoDigits date.day ++ "T" ++
    twoDigits (time / 3600) ++ ":" ++ twoDigits (time / 60 % 60) ++ ":" ++
    twoDigits (time % 60) ++ "Z"

/-- The whole seconds in a span of milliseconds; none in a negative one. -/
def secondsIn (span : Int) : Nat :=
  (span / 1000).toNat

end Instant

/-- A **zoned time**: what a clock shows, to the microsecond, that is ahead of universal time by
some span. -/
structure ZonedTime where
  /-- The date. -/
  date : Date
  /-- The microseconds since midnight. -/
  sinceMidnight : Nat
  /-- The microseconds by which the clock is ahead. -/
  offset : Int
  deriving DecidableEq, Repr

namespace ZonedTime

/-- The microseconds of a day. -/
def microsecondsOfDay : Int := Instant.secondsOfDay * 1000000

/-- What a clock shows a number of microseconds after the start of 1970 in universal time. -/
def ofMoment (moment offset : Int) : ZonedTime :=
  let shown := moment + offset
  { date := Date.ofDayNumber (shown / microsecondsOfDay)
    sinceMidnight := (shown % microsecondsOfDay).toNat
    offset }

/-- The microseconds since the start of 1970 in universal time. -/
def moment (time : ZonedTime) : Int :=
  time.date.dayNumber * microsecondsOfDay + time.sinceMidnight - time.offset

/-- Date and time in universal time. -/
def text (time : ZonedTime) : String :=
  Instant.text (time.moment / 1000)

end ZonedTime

end FileRoutes
