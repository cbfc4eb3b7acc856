import IncrementalBuild.Text.Decimal

/-!
# Binary numbers

A finite binary number is a mantissa times a power of two.  A `BinaryFormat` has room for a
mantissa of so many bits, and for exponents that are not too small; `BinaryNumber.nearest`
rounds a quotient to the nearest number of the format, and a quotient halfway between two to
the one with the even mantissa.

A number is written with a given number of decimal places, after rounding in the same way:
with all its digits before the point (`fixed`), with one digit before the point and an
exponent (`scientific`), with so many digits in all that count (`general`), or in base
sixteen (`hexadecimal`).
-/

namespace IncrementalBuild

/-- A binary number; one that is `unknown` is no number. -/
inductive BinaryNumber
  | finite (negative : Bool) (mantissa : Nat) (exponent : Int)
  | infinite (negative : Bool)
  | unknown (negative : Bool)
deriving DecidableEq, Repr

/-- A format of binary numbers: the number of bits of a mantissa, the least exponent, the
exponent of the least power of two that is too large, and the number of bits that stand before
the point where a number is written in base sixteen. -/
structure BinaryFormat where
  bits : Nat
  least : Int
  bound : Int
  leadingBits : Nat

namespace BinaryFormat

/-- The format of 64 bits. -/
def double : BinaryFormat :=
  ⟨53, -1074, 1024, 1⟩

/-- The format of 80 bits. -/
def extended : BinaryFormat :=
  ⟨64, -16445, 16384, 4⟩

/-- The exponent of the least power of two that has room for all bits of a mantissa. -/
def normal (format : BinaryFormat) : Int :=
  format.least + format.bits - 1

end BinaryFormat

namespace BinaryNumber

/-- The natural number nearest to a quotient; of two that are equally near, the even one. -/
def roundQuotient (num den : Nat) : Nat :=
  let quotient := num / den
  let rest := 2 * (num % den)
  if rest < den || (rest = den && quotient % 2 = 0) then quotient else quotient + 1

/-- The natural number nearest to a quotient times a power of a base. -/
def roundScaled (num den base : Nat) (exponent : Int) : Nat :=
  match exponent with
  | .ofNat n => roundQuotient (num * Nat.pow base n) den
  | .negSucc n => roundQuotient num (den * Nat.pow base (n + 1))

/-- The exponent of the largest power of two that is not larger than a quotient. -/
def quotientLog (num den : Nat) : Int :=
  let guess : Int := (num.log2 : Int) - (den.log2 : Int)
  let isBelow : Bool :=
    match guess with
    | .ofNat n => num < den * Nat.pow 2 n
    | .negSucc n => num * Nat.pow 2 (n + 1) < den
  if isBelow then guess - 1 else guess

/-- The number nearest to a quotient with a sign, and whether the quotient is out of the
range in which numbers lie densely.  A quotient below that range is still within it if it
is rounded into it at the full number of bits. -/
def nearest (format : BinaryFormat) (negative : Bool) (num den : Nat) : BinaryNumber × Bool :=
  if num = 0 then
    (.finite negative 0 0, false)
  else
    let log := quotientLog num den
    let places : Int := format.bits - 1
    let exponent := max (log - places) format.least
    let isSmall : Bool :=
      log < format.normal - 1
        || (log = format.normal - 1
          && roundScaled num den 2 (format.bits - 1 - log) < Nat.pow 2 format.bits)
    let mantissa := roundScaled num den 2 (-exponent)
    if format.bound ≤ (mantissa.log2 : Int) + exponent then
      (.infinite negative, true)
    else
      let isExact : Bool :=
        match exponent with
        | .ofNat n => mantissa * Nat.pow 2 n * den = num
        | .negSucc n => mantissa * den = num * Nat.pow 2 (n + 1)
      (.finite negative mantissa exponent, !isExact && isSmall)

/-- A mantissa times a power of two as a quotient. -/
def quotient (mantissa : Nat) : (exponent : Int) → Nat × Nat
  | .ofNat n => (mantissa * Nat.pow 2 n, 1)
  | .negSucc n => (mantissa, Nat.pow 2 (n + 1))

/-- The decimal places after a point, which is left out if there are none, unless it is
wanted. -/
def afterPoint (wantsPoint : Bool) (places : List Char) : List Char :=
  if places.isEmpty && !wantsPoint then [] else '.' :: places

/-- The number of places and digits after which those of every number are zeros. -/
def maxPlaces : Nat := 16500

/-- The last places of a number, with zeros behind them up to a number of places. -/
def placesOf (places exact n : Nat) : List Char :=
  Decimal.fixed exact n ++ List.replicate (places - exact) '0'

/-- A quotient with all digits before the point. -/
def fixed (wantsPoint : Bool) (places : Nat) (value : Nat × Nat) : List Char :=
  let exact := min places maxPlaces
  let n := roundScaled value.1 value.2 10 exact
  Decimal.digits (n / Nat.pow 10 exact) ++ afterPoint wantsPoint (placesOf places exact n)

/-- The exponent of the largest power of ten that is not larger than a quotient. -/
def decimalLog (value : Nat × Nat) : Int :=
  if value.2 ≤ value.1 then
    ((Decimal.digits (value.1 / value.2)).length : Int) - 1
  else
    let zeros := ((List.range 5000).find? fun k => value.2 ≤ value.1 * Nat.pow 10 k).getD 0
    Int.negOfNat zeros

/-- The digits of a quotient, one and a number of places, and the exponent of the first. -/
def leading (places : Nat) (value : Nat × Nat) : Nat × Int :=
  if value.1 = 0 then
    (0, 0)
  else
    let log := decimalLog value
    let n := roundScaled value.1 value.2 10 ((places : Int) - log)
    if n = Nat.pow 10 (places + 1) then (Nat.pow 10 places, log + 1) else (n, log)

/-- An exponent, with its sign and at least two digits. -/
def exponentText (exponent : Int) : List Char :=
  (if exponent < 0 then '-' else '+')
    :: (if exponent.natAbs < 10 then ['0'] else []) ++ Decimal.digits exponent.natAbs

/-- A quotient with one digit before the point and an exponent. -/
def scientific (wantsPoint : Bool) (places : Nat) (value : Nat × Nat) : List Char :=
  let exact := min places maxPlaces
  let (n, log) := leading exact value
  Decimal.digits (n / Nat.pow 10 exact) ++ afterPoint wantsPoint (placesOf places exact n)
    ++ 'e' :: exponentText log

/-- A quotient with a number of digits that count, in the shorter of the two ways; zeros at
the end of the places are left out unless the point is wanted.  They are left out all the
same if it is the rounding that gives the number one digit too many for the shorter way. -/
def general (wantsPoint : Bool) (count : Nat) (value : Nat × Nat) : List Char :=
  let count := max count 1
  let (_, log) := leading (min (count - 1) maxPlaces) value
  let isRoundedUp : Bool := log = count && value.1 ≠ 0 && decimalLog value < log
  let trim (places : List Char) : List Char :=
    if wantsPoint && !isRoundedUp then places
    else (places.reverse.dropWhile (· = '0')).reverse
  let parts (text : List Char) : List Char :=
    let (whole, places) := text.span (· ≠ '.')
    whole ++ afterPoint wantsPoint (trim places.tail)
  if -4 ≤ log && log < count then
    parts (fixed true ((count : Int) - 1 - log).toNat value)
  else
    let (mantissa, exponent) := (scientific true (count - 1) value).span (· ≠ 'e')
    parts mantissa ++ exponent

/-- A mantissa times a power of two in base sixteen: one digit before the point, and a binary
exponent; without a number of places, as many as are needed. -/
def hexadecimal (format : BinaryFormat) (wantsPoint : Bool) (places : Option Nat)
    (mantissa : Nat) (exponent : Int) : List Char :=
  let log : Int := if mantissa = 0 then 0 else max (mantissa.log2 + exponent) format.normal
  let scale : Int := if mantissa = 0 then 0 else log - (format.leadingBits - 1)
  let value := quotient mantissa (exponent - scale)
  let most := (format.bits - format.leadingBits) / 4
  let count := min (places.getD most) most
  let n := roundScaled value.1 value.2 16 count
  let (n, scale) := if Nat.pow 16 (count + 1) ≤ n then (n / 16, scale + 4) else (n, scale)
  let digits := (List.range count).map fun i => Nat.digitChar (n / Nat.pow 16 (count - 1 - i) % 16)
  let digits :=
    match places with
    | none => (digits.reverse.dropWhile (· = '0')).reverse
    | some places => digits ++ List.replicate (places - count) '0'
  Nat.toDigits 16 (n / Nat.pow 16 count) ++ afterPoint wantsPoint digits
    ++ 'p' :: (if scale < 0 then '-' else '+') :: Decimal.digits scale.natAbs

end BinaryNumber

end IncrementalBuild
