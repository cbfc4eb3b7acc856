import IncrementalBuild.Time.Display

/-!
# Moments of the calendar

The time of a file is a number of seconds since the beginning of 1970, which fits in a signed word
of 64 bits, and a number of nanoseconds short of a second.  It is read by way of the calendar: it
becomes a `Moment`, a date and a time of the day, and the stamp of the file is made of the seconds
and the nanoseconds of the moment.  The calendar has years of at most four digits only, so there
are times that a file can have and that cannot be read; to try it is to panic.
-/

namespace IncrementalBuild

/-- A date and a time of the day with its nanoseconds, in a year from −9999 to 9999. -/
structure Moment where
  date : Date
  clock : Clock
  nanos : Nat
  year_bounds : -9999 ≤ date.year ∧ date.year ≤ 9999

namespace Moment

/-- The moment some seconds and nanoseconds after the beginning of 1970, if it lies in the
calendar. -/
def ofUnix? (secs : Int) (nanos : Nat) : Option Moment :=
  if h : -9999 ≤ (Date.ofSeconds secs).year ∧ (Date.ofSeconds secs).year ≤ 9999 then
    some ⟨Date.ofSeconds secs, Clock.ofSeconds secs, nanos, h⟩
  else
    none

/-- The seconds from the beginning of 1970 to a moment. -/
def seconds (m : Moment) : Int :=
  secondsOf m.date m.clock

end Moment

/-- The stamp of a file time, if it lies in the calendar. -/
def Stamp.ofFileTime? (secs : Int) (nanos : Nat) : Option Stamp :=
  (Moment.ofUnix? secs nanos).bind fun m => ofParts? m.seconds m.nanos

end IncrementalBuild
