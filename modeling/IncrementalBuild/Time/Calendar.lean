/-!
# The calendar

The proleptic Gregorian calendar: a year has a leap day if it is divisible by four, except
that of the years divisible by a hundred only those divisible by four hundred have one.
`Date.toDays` counts the days from the first of January 1970 to a date, and `Date.ofDays`
finds the date of such a count.  Both put the leap day at the end of a year that begins
in March, and count in eras of four hundred years, which all have the same number of days.
-/

namespace IncrementalBuild

/-- A day of the calendar; months and days are counted from one. -/
structure Date where
  year : Int
  month : Int
  day : Int
deriving DecidableEq, Repr

/-- A time of the day. -/
structure Clock where
  hour : Int
  minute : Int
  second : Int
deriving DecidableEq, Repr

namespace Date

/-- The number of days in an era of four hundred years. -/
def daysPerEra : Int := 146097

/-- The number of days from the first of March of the year 0 to the first of January 1970. -/
def daysToEpoch : Int := 719468

/-- The number of days before the month that is `month` months after March, in a year that
begins in March. -/
def daysBeforeMonth (month : Int) : Int :=
  (153 * month + 2) / 5

/-- The number of days before a year of an era. -/
def daysBeforeYear (year : Int) : Int :=
  365 * year + year / 4 - year / 100

/-- The number of days from the first of January 1970 to a date. -/
def toDays (date : Date) : Int :=
  let year := if date.month ≤ 2 then date.year - 1 else date.year
  let month := if date.month ≤ 2 then date.month + 9 else date.month - 3
  let dayOfYear := daysBeforeMonth month + date.day - 1
  year / 400 * daysPerEra + daysBeforeYear (year % 400) + dayOfYear - daysToEpoch

/-- The date a number of days after the first of January 1970. -/
def ofDays (days : Int) : Date :=
  let shifted := days + daysToEpoch
  let era := shifted / daysPerEra
  let dayOfEra := shifted % daysPerEra
  let yearOfEra := (dayOfEra - dayOfEra / 1460 + dayOfEra / 36524 - dayOfEra / 146096) / 365
  let dayOfYear := dayOfEra - daysBeforeYear yearOfEra
  let month := (5 * dayOfYear + 2) / 153
  let year := era * 400 + yearOfEra
  { year := if month < 10 then year else year + 1
    month := if month < 10 then month + 3 else month - 9
    day := dayOfYear - daysBeforeMonth month + 1 }

end Date

/-- The number of seconds in a day. -/
def secondsPerDay : Int := 86400

/-- The date of a moment given in seconds since the beginning of 1970. -/
def Date.ofSeconds (secs : Int) : Date :=
  Date.ofDays (secs / secondsPerDay)

/-- The time of the day of a moment given in seconds since the beginning of 1970. -/
def Clock.ofSeconds (secs : Int) : Clock :=
  let second := secs % secondsPerDay
  ⟨second / 3600, second / 60 % 60, second % 60⟩

/-- The moment of a date and a time of the day, in seconds since the beginning of 1970. -/
def secondsOf (date : Date) (clock : Clock) : Int :=
  date.toDays * secondsPerDay + (clock.hour * 3600 + clock.minute * 60 + clock.second)

end IncrementalBuild
