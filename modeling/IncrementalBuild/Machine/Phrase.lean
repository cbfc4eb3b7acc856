import IncrementalBuild.Machine.Phrase.Token

/-!
# Phrases for moments

A phrase states a date, a time of the day, a day of the week, a time zone, each at most once,
and any number of shifts, in any order; or it states a number of seconds since the beginning
of 1970, after the sign `@`.  What it leaves open is as it is at another moment, and where it
states neither a time nor only shifts, it means the beginning of the day.

`Phrase.ofTokens?` reads what a phrase states, one item after the other, and `Phrase.moment?`
finds the moment that is meant.  A date or a time that there is not makes a phrase
meaningless.
-/

namespace IncrementalBuild

/-- By how much a moment is shifted. -/
structure Shift where
  years : Int
  months : Int
  days : Int
  hours : Int
  minutes : Int
  seconds : Int
  nanos : Int
deriving DecidableEq, Repr

namespace Shift

/-- No shift. -/
def zero : Shift := ⟨0, 0, 0, 0, 0, 0, 0⟩

/-- A shift by a number of units. -/
def of (unit : TimeUnit) (count : Int) : Shift :=
  match unit with
  | .year => { zero with years := count }
  | .month => { zero with months := count }
  | .day days => { zero with days := days * count }
  | .hour => { zero with hours := count }
  | .minute => { zero with minutes := count }
  | .second => { zero with seconds := count }

/-- A shift after another one, so many times. -/
def add (shift other : Shift) (factor : Int) : Shift where
  years := shift.years + factor * other.years
  months := shift.months + factor * other.months
  days := shift.days + factor * other.days
  hours := shift.hours + factor * other.hours
  minutes := shift.minutes + factor * other.minutes
  seconds := shift.seconds + factor * other.seconds
  nanos := shift.nanos + factor * other.nanos

/-- The parts of a shift. -/
def parts (shift : Shift) : List Int :=
  [shift.years, shift.months, shift.days, shift.hours, shift.minutes, shift.seconds, shift.nanos]

end Shift

/-- What a phrase states: a date, a time of the day, the number of a day of the week and the
how manieth of these is meant, a time zone, and a shift; and how many times it does so. -/
structure Phrase where
  year : Numeral
  month : Int
  day : Int
  hour : Int
  minute : Int
  second : Seconds
  isAfternoon : Option Bool
  weekday : Int
  ordinal : Int
  zone : Int
  shift : Shift
  isShifted : Bool
  dates : Nat
  times : Nat
  weekdays : Nat
  zones : Nat
  localZones : Nat
deriving DecidableEq, Repr

namespace Phrase

/-- A phrase that states nothing. -/
def silent (now : Stamp) : Phrase where
  year := ⟨(Date.ofSeconds now.secs).year, 0, false⟩
  month := (Date.ofSeconds now.secs).month
  day := (Date.ofSeconds now.secs).day
  hour := (Clock.ofSeconds now.secs).hour
  minute := (Clock.ofSeconds now.secs).minute
  second := ⟨(Clock.ofSeconds now.secs).second, now.nanos⟩
  isAfternoon := none
  weekday := 0
  ordinal := 0
  zone := 0
  shift := .zero
  isShifted := false
  dates := 0
  times := 0
  weekdays := 0
  zones := 0
  localZones := 0

/-! ### Items -/

/-- The phrase with a time of the day, perhaps in one half of it. -/
def withTime (phrase : Phrase) (hour minute : Int) (second : Seconds)
    (isAfternoon : Option Bool) : Phrase :=
  { phrase with
    hour := hour, minute := minute, second := second, isAfternoon := isAfternoon
    times := phrase.times + 1 }

/-- The phrase with a day of the year. -/
def withDay (phrase : Phrase) (month day : Int) : Phrase :=
  { phrase with month := month, day := day, dates := phrase.dates + 1 }

/-- The phrase with a date. -/
def withDate (phrase : Phrase) (year : Numeral) (month day : Int) : Phrase :=
  { phrase.withDay month day with year := year }

/-- The phrase with a day of the week. -/
def withWeekday (phrase : Phrase) (ordinal weekday : Int) : Phrase :=
  { phrase with ordinal := ordinal, weekday := weekday, weekdays := phrase.weekdays + 1 }

/-- The phrase with a time zone. -/
def withZone (phrase : Phrase) (offset : Int) : Phrase :=
  { phrase with zone := offset, zones := phrase.zones + 1 }

/-- The phrase with a shift, so many times; none if it becomes too large. -/
def shifted (phrase : Phrase) (shift : Shift) (factor : Int) : Option Phrase :=
  let shift := phrase.shift.add shift factor
  if shift.parts.all fun part => minSeconds ≤ part && part ≤ maxSeconds then
    some { phrase with shift := shift, isShifted := true }
  else
    none

/-- The phrase with a number that stands alone.  It is the year of a date that is without
one, if it has more than two digits or a time has been stated; with more than four digits it
is a date, and with fewer a time. -/
def withNumber (phrase : Phrase) (n : Numeral) : Phrase :=
  if 0 < phrase.dates && phrase.year.digits = 0 && !phrase.isShifted
      && (0 < phrase.times || 2 < n.digits) then
    { phrase with year := n }
  else if 4 < n.digits then
    phrase.withDate ⟨n.value / 10000, n.digits - 4, false⟩ (n.value / 100 % 100) (n.value % 100)
  else if n.digits ≤ 2 then
    phrase.withTime n.value 0 ⟨0, 0⟩ none
  else
    phrase.withTime (n.value / 100) (n.value % 100) ⟨0, 0⟩ none

/-- How many seconds ahead a time zone is that is stated as hours, or as hours and minutes
in one numeral or in two; none if it is more than a day. -/
def zoneOffset? (hours : Numeral) (minutes : Option Numeral) : Option Int :=
  let total :=
    match minutes with
    | none =>
      let n := if hours.digits ≤ 2 then 100 * hours.value else hours.value
      n.tdiv 100 * 60 + n.tmod 100
    | some minutes =>
      60 * hours.value + if hours.negative then -minutes.value else minutes.value
  if -1440 ≤ total && total ≤ 1440 then some (60 * total) else none

/-- The difference to a time zone that tokens begin with, and the tokens after it. -/
def readOffset (hours : Numeral) : List PhraseToken → Option (Int × List PhraseToken)
  | .sign ':' :: .unsigned minutes :: rest => (zoneOffset? hours (some minutes)).map (·, rest)
  | .sign ':' :: _ => none
  | rest => (zoneOffset? hours none).map (·, rest)

/-- The phrase with a time of the day, and the tokens after it, which may begin with the
difference to a time zone. -/
def readTimeZone (phrase : Phrase) (hour minute : Int) (second : Seconds) :
    List PhraseToken → Option (Phrase × List PhraseToken)
  | .signed hours :: rest =>
    (readOffset hours rest).map fun (offset, rest) =>
      ((phrase.withTime hour minute second none).withZone offset, rest)
  | rest => some (phrase.withTime hour minute second none, rest)

/-- The phrase with a time of the day after its hour and a colon, and the tokens after it.
It may say in which half of the day it is if it `canHalve`. -/
def readMinutes (phrase : Phrase) (canHalve : Bool) (hour : Int) :
    List PhraseToken → Option (Phrase × List PhraseToken)
  | .unsigned minute :: .sign ':' :: rest =>
    let finish (second : Seconds) (rest : List PhraseToken) :
        Option (Phrase × List PhraseToken) :=
      match canHalve, rest with
      | true, .meridian isAfternoon :: rest =>
        some (phrase.withTime hour minute.value second (some isAfternoon), rest)
      | _, rest => readTimeZone phrase hour minute.value second rest
    match rest with
    | .unsigned second :: rest => finish ⟨second.value, 0⟩ rest
    | .unsignedDecimal second :: rest => finish second rest
    | _ => none
  | .unsigned minute :: rest =>
    match canHalve, rest with
    | true, .meridian isAfternoon :: rest =>
      some (phrase.withTime hour minute.value ⟨0, 0⟩ (some isAfternoon), rest)
    | _, rest => readTimeZone phrase hour minute.value ⟨0, 0⟩ rest
  | _ => none

/-- The phrase with a date in the order of year, month and day, and the tokens after it.  A
letter T is followed by a time. -/
def readAfterDate (phrase : Phrase) : List PhraseToken → Option (Phrase × List PhraseToken)
  | .letterT :: .unsigned hour :: .sign ':' :: rest => readMinutes phrase false hour.value rest
  | .letterT :: .unsigned hour :: .signed hours :: rest =>
    readTimeZone phrase hour.value 0 ⟨0, 0⟩ (.signed hours :: rest)
  | .letterT :: _ => none
  | rest => some (phrase, rest)

/-- The phrase with a shift, which goes backward if the next token says so, and the tokens
after it. -/
def readShift (phrase : Phrase) (shift : Shift) :
    List PhraseToken → Option (Phrase × List PhraseToken)
  | .direction factor :: rest => (phrase.shifted shift factor).map (·, rest)
  | rest => (phrase.shifted shift 1).map (·, rest)

/-- The phrase with an item that begins with a number without a sign, and the tokens after
it. -/
def readAfterNumber (phrase : Phrase) (n : Numeral) :
    List PhraseToken → Option (Phrase × List PhraseToken)
  | .meridian isAfternoon :: rest =>
    some (phrase.withTime n.value 0 ⟨0, 0⟩ (some isAfternoon), rest)
  | .sign ':' :: rest => readMinutes phrase true n.value rest
  | .sign '/' :: .unsigned second :: .sign '/' :: .unsigned third :: rest =>
    if 4 ≤ n.digits then some (phrase.withDate n second.value third.value, rest)
    else some (phrase.withDate third n.value second.value, rest)
  | .sign '/' :: .unsigned _ :: .sign '/' :: _ => none
  | .sign '/' :: .unsigned day :: rest => some (phrase.withDay n.value day.value, rest)
  | .sign '/' :: _ => none
  | .month month :: .signed year :: rest =>
    some (phrase.withDate ⟨-year.value, year.digits, false⟩ month n.value, rest)
  | .month month :: .unsigned year :: rest => some (phrase.withDate year month n.value, rest)
  | .month month :: rest => some (phrase.withDay month n.value, rest)
  | .weekday weekday :: rest => some (phrase.withWeekday n.value weekday, rest)
  | .unit unit :: rest => readShift phrase (.of unit n.value) rest
  | .signed month :: .signed day :: rest =>
    readAfterDate (phrase.withDate n (-month.value) (-day.value)) rest
  | .signed count :: .unit unit :: rest =>
    ((phrase.withNumber n).shifted (.of unit count.value) 1).map (·, rest)
  | .signed hours :: rest => readTimeZone phrase n.value 0 ⟨0, 0⟩ (.signed hours :: rest)
  | rest => some (phrase.withNumber n, rest)

/-- The phrase with an item that begins with a time zone, and the tokens after it. -/
def readAfterZone (phrase : Phrase) (offset : Int) :
    List PhraseToken → Option (Phrase × List PhraseToken)
  | .signed count :: .unit unit :: rest =>
    ((phrase.withZone offset).shifted (.of unit count.value) 1).map (·, rest)
  | .signed hours :: rest =>
    (readOffset hours rest).map fun (more, rest) => (phrase.withZone (offset + more), rest)
  | .summer :: rest => some (phrase.withZone (offset + 3600), rest)
  | rest => some (phrase.withZone offset, rest)

/-- The phrase with the item that tokens begin with, and the tokens after it. -/
def readItem (phrase : Phrase) : List PhraseToken → Option (Phrase × List PhraseToken)
  | .unsigned n :: rest => readAfterNumber phrase n rest
  | .signed count :: .unit unit :: rest => readShift phrase (.of unit count.value) rest
  | .signedDecimal seconds :: .unit .second :: rest
  | .unsignedDecimal seconds :: .unit .second :: rest =>
    readShift phrase { Shift.zero with seconds := seconds.whole, nanos := seconds.nanos } rest
  | .month month :: .signed day :: .signed year :: rest =>
    some (phrase.withDate ⟨-year.value, year.digits, false⟩ month (-day.value), rest)
  | .month month :: .unsigned day :: .sign ',' :: .unsigned year :: rest =>
    some (phrase.withDate year month day.value, rest)
  | .month _ :: .unsigned _ :: .sign ',' :: _ => none
  | .month month :: .unsigned day :: rest => some (phrase.withDay month day.value, rest)
  | .weekday weekday :: .sign ',' :: rest | .weekday weekday :: rest =>
    some (phrase.withWeekday 0 weekday, rest)
  | .ordinal count :: .weekday weekday :: rest => some (phrase.withWeekday count weekday, rest)
  | .ordinal count :: .unit unit :: rest => readShift phrase (.of unit count) rest
  | .unit unit :: rest => readShift phrase (.of unit 1) rest
  | .shift days :: rest => (phrase.shifted (.of (.day 1) days) 1).map (·, rest)
  | .zone offset :: rest => readAfterZone phrase offset rest
  | .summerZone offset :: rest => some (phrase.withZone (offset + 3600), rest)
  | .letterT :: .signed count :: .unit unit :: rest =>
    ((phrase.withZone (-7 * 3600)).shifted (.of unit count.value) 1).map (·, rest)
  | .letterT :: .signed _ :: _ => none
  | .letterT :: rest => some (phrase.withZone (-7 * 3600), rest)
  | .localZone :: rest => some ({ phrase with localZones := phrase.localZones + 1 }, rest)
  | _ => none

/-- The phrase with the items of tokens. -/
def readItems : (fuel : Nat) → Phrase → List PhraseToken → Option Phrase
  | _, phrase, [] => some phrase
  | 0, _, _ :: _ => none
  | fuel + 1, phrase, token :: rest =>
    match readItem phrase (token :: rest) with
    | none => none
    | some (phrase, rest) => readItems fuel phrase rest

/-- What tokens state, seen from a moment. -/
def ofTokens? (now : Stamp) (tokens : List PhraseToken) : Option Phrase :=
  readItems tokens.length (silent now) tokens

/-! ### Meaning -/

/-- The year that is meant: two digits stand for one between 1969 and 2068, and a sign does
not count. -/
def fullYear (year : Numeral) : Int :=
  if 0 ≤ year.value && year.digits = 2 then
    if year.value < 69 then year.value + 2000 else year.value + 1900
  else
    year.value.natAbs

/-- The hour of the day, given the half of it if one is stated. -/
def fullHour? (hour : Int) : Option Bool → Option Int
  | none => if 0 ≤ hour && hour < 24 then some hour else none
  | some isAfternoon =>
    if 0 < hour && hour ≤ 12 then some (hour % 12 + if isAfternoon then 12 else 0) else none

/-- A year that the calendar goes up to. -/
def isYear (year : Int) : Bool :=
  -2147481748 ≤ year && year ≤ 2147485547

/-- A count of days or months that has room in 32 bits. -/
def isSmall (count : Int) : Bool :=
  -2147483648 ≤ count && count ≤ 2147483647

/-- A date some years, months and days after another one. -/
def moved (date : Date) (shift : Shift) : Option Date :=
  let months := date.month - 1 + shift.months
  let year := date.year + shift.years
  let days := date.day + shift.days
  let first : Date := ⟨year + months / 12, months % 12 + 1, 1⟩
  let moved := Date.ofDays (first.toDays + days - 1)
  if isYear year && isSmall months && isSmall days && isYear moved.year then some moved else none

/-- The date on which a day of the week falls, seen from a date. -/
def onWeekday (date : Date) (ordinal weekday : Int) : Option Date :=
  let days := date.toDays
  let today := (days + 4) % 7
  let weeks := if 0 < ordinal && today ≠ weekday then ordinal - 1 else ordinal
  let ahead := (weekday - today) % 7 + 7 * weeks
  if isSmall (date.day + ahead) then some (Date.ofDays (days + ahead)) else none

/-- The moment that a phrase means. -/
def moment? (phrase : Phrase) : Option Stamp := do
  let hasClock := 0 < phrase.times
    || (phrase.isShifted && phrase.dates = 0 && phrase.weekdays = 0)
  let hour ← if hasClock then fullHour? phrase.hour phrase.isAfternoon else some 0
  let clock : Clock := if hasClock then ⟨hour, phrase.minute, phrase.second.whole⟩ else ⟨0, 0, 0⟩
  let nanos : Nat := if hasClock then phrase.second.nanos else 0
  let date : Date := ⟨fullYear phrase.year, phrase.month, phrase.day⟩
  let secs := secondsOf date clock
  if 1 < phrase.times || 1 < phrase.dates || 1 < phrase.weekdays
      || 1 < phrase.zones + phrase.localZones then
    none
  else if !isYear date.year || Date.ofSeconds secs ≠ date || Clock.ofSeconds secs ≠ clock then
    none
  else
    let date ←
      if 0 < phrase.weekdays && phrase.dates = 0 then
        onWeekday date phrase.ordinal phrase.weekday
      else
        some date
    let date ← moved date phrase.shift
    let secs := secondsOf date clock - phrase.zone + 3600 * phrase.shift.hours
      + 60 * phrase.shift.minutes + phrase.shift.seconds
    let sum := nanos + phrase.shift.nanos
    Stamp.ofParts? (secs + sum / nanosPerSecond) (sum % nanosPerSecond).toNat

/-- The moment that a text means, seen from another moment.  A text without anything in it
means the beginning of the day. -/
def read (now : Stamp) (text : String) : Option Stamp :=
  let cs := text.toList.dropWhile PhraseToken.isBlank
  match PhraseToken.read (if cs.isEmpty then ['0'] else cs) with
  | none => none
  | some [.sign '@', .unsigned n] | some [.sign '@', .signed n] => Stamp.ofParts? n.value 0
  | some [.sign '@', .unsignedDecimal seconds] | some [.sign '@', .signedDecimal seconds] =>
    Stamp.ofParts? seconds.whole seconds.nanos
  | some tokens => (ofTokens? now tokens).bind moment?

end Phrase

end IncrementalBuild
