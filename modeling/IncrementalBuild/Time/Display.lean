import IncrementalBuild.Text.Decimal
import IncrementalBuild.Time.Calendar
import IncrementalBuild.Time.Stamp

/-!
# The text of a time stamp

`Stamp.display` writes a stamp of the years 0 to 9999 in the format of RFC 3339, in
Universal Time and with as many places of the fraction of a second as are needed.  Any
other stamp is written as its seconds, a point and nine places.

`Stamp.InCalendar` says that the year of a stamp has at most four digits, with or without
a minus sign.  A file time that violates it cannot be read as a stamp.
-/

namespace IncrementalBuild.Stamp

/-- The year of a stamp. -/
def year (t : Stamp) : Int :=
  (Date.ofSeconds t.secs).year

/-- The year of a stamp lies between −9999 and 9999. -/
def InCalendar (t : Stamp) : Prop :=
  -9999 ≤ t.year ∧ t.year ≤ 9999

instance (t : Stamp) : Decidable t.InCalendar :=
  inferInstanceAs (Decidable (-9999 ≤ t.year ∧ t.year ≤ 9999))

/-- The places of a fraction of a second that are needed, after a point; nothing if none
are needed. -/
def fraction (nanos : Nat) : List Char :=
  match ((Decimal.fixed 9 nanos).reverse.dropWhile (· = '0')).reverse with
  | [] => []
  | places => '.' :: places

/-- The last two digits of a number. -/
def twoPlaces (n : Int) : List Char :=
  Decimal.fixed 2 n.toNat

/-- The text of a date and a time of the day in the format of RFC 3339. -/
def dateTime (date : Date) (clock : Clock) (nanos : Nat) : List Char :=
  Decimal.fixed 4 date.year.toNat ++ '-' :: twoPlaces date.month ++ '-' :: twoPlaces date.day
    ++ 'T' :: twoPlaces clock.hour ++ ':' :: twoPlaces clock.minute ++ ':' :: twoPlaces clock.second
    ++ fraction nanos ++ ['Z']

/-- The text of a stamp. -/
def display (t : Stamp) : String :=
  if 0 ≤ t.year ∧ t.year ≤ 9999 then
    String.ofList (dateTime (Date.ofSeconds t.secs) (Clock.ofSeconds t.secs) t.nanos)
  else
    Decimal.ofInt t.secs ++ "." ++ String.ofList (Decimal.fixed 9 t.nanos)

end IncrementalBuild.Stamp
