import IncrementalBuild.Machine.BinaryNumber

/-!
# Numbers in arguments

Programs read a number at the beginning of an argument, after blanks and a sign.  A numeral
in base ten consists of decimal digits; where the base is open, `0x` in front makes it
sixteen and `0` eight.  `readInteger` reads a whole number, and `readReal` one with a
point and an exponent, or the word for one that is infinite or none at all.
-/

namespace IncrementalBuild.Shell.Program

/-- A character that may stand in front of a number. -/
def isSpace (c : Char) : Bool :=
  c = ' ' || ('\t' ≤ c && c ≤ '\r')

/-- An octal digit. -/
def isOctal (c : Char) : Bool :=
  '0' ≤ c && c ≤ '7'

/-- The value of a character as a digit in a base. -/
def digit? (base : Nat) (c : Char) : Option Nat :=
  let value :=
    if Decimal.isDigit c then Decimal.digitValue c
    else if 'a' ≤ c && c ≤ 'f' then c.toNat - 'a'.toNat + 10
    else if 'A' ≤ c && c ≤ 'F' then c.toNat - 'A'.toNat + 10
    else base
  if value < base then some value else none

/-- The digits in a base that a text begins with, and the text after them. -/
def takeDigits (base : Nat) (cs : List Char) : List Char × List Char :=
  cs.span fun c => (digit? base c).isSome

/-- The number that digits in a base stand for. -/
def digitsValue (base : Nat) (cs : List Char) : Nat :=
  cs.foldl (fun total c => base * total + (digit? base c).getD 0) 0

/-- Whether a minus sign is in front of a text, and the text after blanks and a sign. -/
def afterSign (cs : List Char) : Bool × List Char :=
  match cs.dropWhile isSpace with
  | '-' :: cs => (true, cs)
  | '+' :: cs => (false, cs)
  | cs => (false, cs)

/-- The base that the beginning of a numeral states, and the text after that; where no digit
follows, nothing is stated. -/
def statedBase (cs : List Char) : Nat × List Char :=
  match cs with
  | '0' :: 'x' :: rest | '0' :: 'X' :: rest =>
    if rest.head?.any fun c => (digit? 16 c).isSome then (16, rest) else (8, cs)
  | '0' :: _ => (8, cs)
  | _ => (10, cs)

/-- The whole number that a text begins with, and the text after it; without a base, the
numeral states one. -/
def readInteger (base : Option Nat) (cs : List Char) : Option (Int × List Char) :=
  let (negative, cs) := afterSign cs
  let (base, cs) :=
    match base with
    | some base => (base, cs)
    | none => statedBase cs
  match takeDigits base cs with
  | ([], _) => none
  | (digits, rest) =>
    let value : Int := digitsValue base digits
    some (if negative then -value else value, rest)

/-- The whole number in base ten that a whole text stands for. -/
def integer? (text : String) : Option Int :=
  match readInteger (some 10) text.toList with
  | none => none
  | some (value, rest) => if rest.all isSpace then some value else none

/-- The exponent that a text begins with after one of two letters, and the text after it. -/
def readExponent (letter capital : Char) (cs : List Char) : Int × List Char :=
  match cs with
  | c :: rest =>
    if c = letter || c = capital then
      let (negative, digits) :=
        match rest with
        | '-' :: cs => (true, cs)
        | '+' :: cs => (false, cs)
        | cs => (false, cs)
      match takeDigits 10 digits with
      | ([], _) => (0, c :: rest)
      | (digits, after) =>
        let value : Int := digitsValue 10 digits
        (if negative then -value else value, after)
    else
      (0, c :: rest)
  | [] => (0, [])

/-- The mantissa in a base that a text begins with: its digits without the point, how many
of them come after the point, and the text after it. -/
def readMantissa (base : Nat) (cs : List Char) : Option (List Char × Nat × List Char) :=
  let (whole, rest) := takeDigits base cs
  let (places, rest) :=
    match rest with
    | '.' :: after =>
      let (places, after) := takeDigits base after
      if whole.isEmpty && places.isEmpty then ([], rest) else (places, after)
    | rest => ([], rest)
  if whole.isEmpty && places.isEmpty then none else some (whole ++ places, places.length, rest)

/-- A number times a power of a base, rounded, and whether it is out of range.  Powers that
are beyond all numbers are cut off. -/
def scaled (format : BinaryFormat) (negative : Bool) (digits : Nat) (base : Nat)
    (exponent : Int) : BinaryNumber × Bool :=
  let exponent := max (-20000) (min 20000 exponent)
  match exponent with
  | .ofNat n => BinaryNumber.nearest format negative (digits * Nat.pow base n) 1
  | .negSucc n => BinaryNumber.nearest format negative digits (Nat.pow base (n + 1))

/-- The text after a word, in letters of either case. -/
def afterWord? (word : String) (cs : List Char) : Option (List Char) :=
  if (cs.take word.length).map Char.toLower = word.toList then some (cs.drop word.length)
  else none

/-- The text after the name in parentheses that a text begins with, if it does. -/
def afterName (cs : List Char) : List Char :=
  match cs with
  | '(' :: rest =>
    match rest.dropWhile fun c => c.isAlphanum || c = '_' with
    | ')' :: rest => rest
    | _ => cs
  | cs => cs

/-- The number with a point that a text begins with, whether it is out of range, and the
text after it. -/
def readReal (format : BinaryFormat) (cs : List Char) :
    Option (BinaryNumber × Bool × List Char) :=
  let (negative, cs) := afterSign cs
  let hexadecimal :=
    match cs with
    | '0' :: 'x' :: rest | '0' :: 'X' :: rest => readMantissa 16 rest
    | _ => none
  match hexadecimal with
  | some (digits, places, rest) =>
    let (exponent, rest) := readExponent 'p' 'P' rest
    let (value, isOut) := scaled format negative (digitsValue 16 digits) 2 (exponent - 4 * places)
    some (value, isOut, rest)
  | none =>
    match readMantissa 10 cs with
    | some (digits, places, rest) =>
      let (exponent, rest) := readExponent 'e' 'E' rest
      let (value, isOut) := scaled format negative (digitsValue 10 digits) 10 (exponent - places)
      some (value, isOut, rest)
    | none =>
      match (afterWord? "infinity" cs).or (afterWord? "inf" cs), afterWord? "nan" cs with
      | some rest, _ => some (.infinite negative, false, rest)
      | none, some rest => some (.unknown negative, false, afterName rest)
      | none, none => none

end IncrementalBuild.Shell.Program
