import IncrementalBuild.Text.Decimal
import IncrementalBuild.Time.Calendar
import IncrementalBuild.Time.Stamp

/-!
# The tokens of a phrase for a moment

A phrase for a moment consists of numbers, words and signs.  A number has a sign or none, and
decimal places or none; a sign without a number is passed over, and so is what stands between
parentheses.  A word is a name of a month, a day of the week, a time zone, a unit of time, or
one that says in which direction time is counted.  Words are read in letters of either case.

`PhraseToken.read` cuts a text into tokens.
-/

namespace IncrementalBuild

/-- A unit of time. -/
inductive TimeUnit
  | year
  | month
  | day (count : Int)
  | hour
  | minute
  | second
deriving DecidableEq, Repr

/-- A whole number as it is written, and how many digits it has. -/
structure Numeral where
  value : Int
  digits : Nat
  negative : Bool
deriving DecidableEq, Repr

/-- A number of seconds with decimal places. -/
structure Seconds where
  whole : Int
  nanos : Nat
deriving DecidableEq, Repr

/-- A token of a phrase.  A `zone` is as many seconds ahead of the first meridian. -/
inductive PhraseToken
  | unsigned (numeral : Numeral)
  | signed (numeral : Numeral)
  | unsignedDecimal (seconds : Seconds)
  | signedDecimal (seconds : Seconds)
  | meridian (isAfternoon : Bool)
  | month (number : Int)
  | weekday (number : Int)
  | zone (offset : Int)
  | summerZone (offset : Int)
  | localZone
  | summer
  | unit (unit : TimeUnit)
  | shift (days : Int)
  | ordinal (count : Int)
  | direction (factor : Int)
  | letterT
  | sign (char : Char)
deriving DecidableEq, Repr

namespace PhraseToken

/-! ### Words -/

/-- The names of the months, the first one first. -/
def monthNames : List String :=
  ["JANUARY", "FEBRUARY", "MARCH", "APRIL", "MAY", "JUNE", "JULY", "AUGUST", "SEPTEMBER",
    "OCTOBER", "NOVEMBER", "DECEMBER"]

/-- The names of the days of the week, Sunday first. -/
def weekdayNames : List String :=
  ["SUNDAY", "MONDAY", "TUESDAY", "WEDNESDAY", "THURSDAY", "FRIDAY", "SATURDAY"]

/-- Other names of months and of days of the week. -/
def otherNames : List (String × PhraseToken) :=
  [("SEPT", month 9), ("TUES", weekday 2), ("WEDNES", weekday 3), ("THUR", weekday 4),
    ("THURS", weekday 4)]

/-- The time zones of winter, and how many quarters of an hour they are ahead. -/
def zones : List (String × Int) :=
  [("GMT", 0), ("UT", 0), ("UTC", 0), ("WET", 0), ("ART", -12), ("BRT", -12), ("NST", -14),
    ("AST", -16), ("CLT", -16), ("EST", -20), ("CST", -24), ("MST", -28), ("PST", -32),
    ("AKST", -36), ("HST", -40), ("HAST", -40), ("SST", -48), ("WAT", 4), ("CET", 4), ("MET", 4),
    ("MEZ", 4), ("EET", 8), ("CAT", 8), ("SAST", 8), ("EAT", 12), ("MSK", 12), ("IST", 22),
    ("SGT", 32), ("KST", 36), ("JST", 36), ("GST", 40), ("NZST", 48)]

/-- The time zones of summer, and how many quarters of an hour those of winter are ahead that
belong to them. -/
def summerZones : List (String × Int) :=
  [("WEST", 0), ("BST", 0), ("BRST", -12), ("NDT", -14), ("ADT", -16), ("CLST", -16),
    ("EDT", -20), ("CDT", -24), ("MDT", -28), ("PDT", -32), ("AKDT", -36), ("HADT", -40),
    ("CEST", 4), ("MEST", 4), ("MESZ", 4), ("EEST", 8), ("MSD", 12), ("NZDT", 48)]

/-- The names of units. -/
def units : List (String × TimeUnit) :=
  [("YEAR", .year), ("MONTH", .month), ("FORTNIGHT", .day 14), ("WEEK", .day 7), ("DAY", .day 1),
    ("HOUR", .hour), ("MINUTE", .minute), ("MIN", .minute), ("SECOND", .second), ("SEC", .second)]

/-- Words that say when something is, seen from today. -/
def relations : List (String × PhraseToken) :=
  [("TOMORROW", shift 1), ("YESTERDAY", shift (-1)), ("TODAY", shift 0), ("NOW", shift 0),
    ("LAST", ordinal (-1)), ("THIS", ordinal 0), ("NEXT", ordinal 1), ("FIRST", ordinal 1),
    ("THIRD", ordinal 3), ("FOURTH", ordinal 4), ("FIFTH", ordinal 5), ("SIXTH", ordinal 6),
    ("SEVENTH", ordinal 7), ("EIGHTH", ordinal 8), ("NINTH", ordinal 9), ("TENTH", ordinal 10),
    ("ELEVENTH", ordinal 11), ("TWELFTH", ordinal 12), ("AGO", direction (-1)),
    ("HENCE", direction 1)]

/-- The time zone that a name stands for. -/
def zone? (name : String) : Option PhraseToken :=
  match zones.lookup name, summerZones.lookup name with
  | some quarters, _ => some (zone (900 * quarters))
  | none, some quarters => some (summerZone (900 * quarters))
  | none, none => none

/-- The time zone that a letter stands for: those to the east come first in the alphabet,
and two letters mean something else. -/
def zoneOfLetter? (c : Char) : Option PhraseToken :=
  let place : Int := c.toNat - 'A'.toNat
  if c = 'J' then some localZone
  else if c = 'T' then some letterT
  else if c = 'Z' then some (zone 0)
  else if c < 'J' then some (zone (3600 * (place + 1)))
  else if c < 'N' then some (zone (3600 * place))
  else some (zone (-3600 * (place - 12)))

/-- A word is short for a name if it has three letters, perhaps with a point after them, and
the name begins with these. -/
def abbreviates (word name : String) : Bool :=
  if word.length = 3 || (word.length = 4 && word.endsWith ".") then
    word.toList.take 3 = name.toList.take 3
  else
    word = name

/-- The number of the name that a word stands for, counted from one. -/
def numberAmong? (names : List String) (word : String) : Option Int :=
  (names.findIdx? (abbreviates word)).map fun index => index + 1

/-- What a word in capital letters stands for. -/
def ofWord? (word : String) : Option PhraseToken :=
  let singular := if word.endsWith "S" then String.ofList word.toList.dropLast else word
  let withoutPoints := String.ofList (word.toList.filter (· ≠ '.'))
  if word = "AM" || word = "A.M." then some (meridian false)
  else if word = "PM" || word = "P.M." then some (meridian true)
  else
    ((numberAmong? monthNames word).map month)
    <|> ((numberAmong? weekdayNames word).map fun number => weekday (number - 1))
    <|> otherNames.lookup word
    <|> zone? word
    <|> (if word = "DST" then some summer else none)
    <|> ((units.lookup word).map unit)
    <|> ((units.lookup singular).map unit)
    <|> relations.lookup word
    <|> (match word.toList with
      | [c] => zoneOfLetter? c
      | _ => none)
    <|> (if withoutPoints ≠ word then zone? withoutPoints else none)

/-! ### Reading -/

/-- A blank between tokens. -/
def isBlank (c : Char) : Bool :=
  c = ' ' || ('\t' ≤ c && c ≤ '\r')

/-- The number that a text begins with, and the text after it; none if it is too large. -/
def readNumber (negative hasSign : Bool) (cs : List Char) : Option (PhraseToken × List Char) :=
  let digits := cs.takeWhile Decimal.isDigit
  let rest := cs.dropWhile Decimal.isDigit
  let value : Int := if negative then -Decimal.value digits else Decimal.value digits
  let inRange (n : Int) : Bool := minSeconds ≤ n && n ≤ maxSeconds
  let decimal (whole : Int) (nanos : Nat) (rest : List Char) : Option (PhraseToken × List Char) :=
    if !inRange whole then none
    else some ((if hasSign then signedDecimal else unsignedDecimal) ⟨whole, nanos⟩, rest)
  match rest with
  | c :: d :: after =>
    if (c = '.' || c = ',') && Decimal.isDigit d then
      let places := (d :: after).takeWhile Decimal.isDigit
      let rest := (d :: after).dropWhile Decimal.isDigit
      let cut := Decimal.value (places.take 9 ++ List.replicate (9 - places.length) '0')
      let nanos := if negative && (places.drop 9).any (· ≠ '0') then cut + 1 else cut
      if !inRange value then none
      else if negative && nanos ≠ 0 then decimal (value - 1) (nanosPerSecond - nanos) rest
      else decimal value nanos rest
    else if inRange value then
      let make := if hasSign then signed else unsigned
      some (make ⟨value, digits.length, negative⟩, c :: d :: after)
    else
      none
  | rest =>
    if inRange value then
      some ((if hasSign then signed else unsigned) ⟨value, digits.length, negative⟩, rest)
    else
      none

/-- The text after what stands between parentheses; none if they are not closed. -/
def afterParentheses : (depth : Nat) → List Char → Option (List Char)
  | _, [] => none
  | depth, '(' :: cs => afterParentheses (depth + 1) cs
  | depth, ')' :: cs => if depth ≤ 1 then some cs else afterParentheses (depth - 1) cs
  | depth, _ :: cs => afterParentheses depth cs

/-- The tokens of a text.  It ends with parentheses that are not closed; none if a token
cannot be read. -/
def readAll : (fuel : Nat) → List Char → Option (List PhraseToken)
  | 0, _ | _, [] => some []
  | fuel + 1, c :: cs =>
    if isBlank c then
      readAll fuel cs
    else if Decimal.isDigit c then
      match readNumber false false (c :: cs) with
      | none => none
      | some (token, rest) => (readAll fuel rest).map (token :: ·)
    else if c = '-' || c = '+' then
      let digits := cs.dropWhile isBlank
      if digits.head?.any Decimal.isDigit then
        match readNumber (c = '-') true digits with
        | none => none
        | some (token, rest) => (readAll fuel rest).map (token :: ·)
      else
        readAll fuel digits
    else if c.isAlpha then
      let isInWord (c : Char) : Bool := c.isAlpha || c = '.'
      let word := ((c :: cs.takeWhile isInWord).take 19).map Char.toUpper
      match ofWord? (String.ofList word) with
      | none => none
      | some token => (readAll fuel (cs.dropWhile isInWord)).map (token :: ·)
    else if c = '(' then
      match afterParentheses 0 (c :: cs) with
      | none => some []
      | some rest => readAll fuel rest
    else
      (readAll fuel cs).map (sign c :: ·)

/-- The tokens of a text. -/
def read (cs : List Char) : Option (List PhraseToken) :=
  readAll (cs.length + 1) cs

end PhraseToken

end IncrementalBuild
