import IncrementalBuild.Machine.Shell.Program.Printing.Escape
import IncrementalBuild.Machine.BinaryNumber

/-!
# Fields

A `Field` says how an argument is shown: on which side of how wide a field, and, for a number,
with how many places and with what in front of it.  Texts are measured and cut in bytes.
-/

namespace IncrementalBuild.Shell.Program

/-- How an argument is shown: its side in the field, whether zeros fill the field, the sign
in front of a number that is not negative, whether the base or the point is always shown,
the width of the field, and the number of places. -/
structure Field where
  leftward : Bool
  zeros : Bool
  plus : List Char
  explicit : Bool
  width : Nat
  places : Option Nat
deriving DecidableEq, Repr

namespace Field

/-- The width of the widest field, and the largest number of places. -/
def maxWidth : Nat := 2147483647

/-- Whether the field is not too wide, and does not have too many places. -/
def fits (field : Field) : Bool :=
  field.width ≤ maxWidth && field.places.all (· ≤ maxWidth)

/-- A text in the field. -/
def pad (field : Field) (bytes : List UInt8) : List UInt8 :=
  let blanks := List.replicate (field.width - bytes.length) 32
  if field.leftward then bytes ++ blanks else blanks ++ bytes

/-- A text in the field, cut to the number of places. -/
def text (field : Field) (bytes : List UInt8) : List UInt8 :=
  field.pad (match field.places with
    | none => bytes
    | some places => bytes.take places)

/-- The digits of a number in the field, after a sign or a sign of the base. -/
def numeral (field : Field) (fills : Bool) (start digits : List Char) : List UInt8 :=
  let zeros :=
    if field.zeros && fills && !field.leftward then
      List.replicate (field.width - start.length - digits.length) '0'
    else
      []
  field.pad (bytesIn (start ++ zeros ++ digits))

/-- Digits with zeros in front, up to the number of places; zero has no digits in no
places. -/
def placed (field : Field) (n : Nat) (digits : List Char) : List Char :=
  match field.places with
  | none => digits
  | some places =>
    if n = 0 && places = 0 then []
    else List.replicate (places - digits.length) '0' ++ digits

/-- The sign of a number. -/
def sign (field : Field) (negative : Bool) : List Char :=
  if negative then ['-'] else field.plus

/-- A whole number with a sign. -/
def signed (field : Field) (n : Int) : List UInt8 :=
  field.numeral field.places.isNone (field.sign (n < 0))
    (field.placed n.natAbs (Decimal.digits n.natAbs))

/-- A whole number without a sign, in a base that a letter stands for. -/
def unsigned (field : Field) (letter : Char) (n : Nat) : List UInt8 :=
  let fills := field.places.isNone
  match letter with
  | 'o' =>
    let digits := field.placed n (Nat.toDigits 8 n)
    let digits := if field.explicit && digits.head? ≠ some '0' then '0' :: digits else digits
    field.numeral fills [] digits
  | 'x' =>
    field.numeral fills (if field.explicit && n ≠ 0 then ['0', 'x'] else [])
      (field.placed n (Nat.toDigits 16 n))
  | 'X' =>
    field.numeral fills (if field.explicit && n ≠ 0 then ['0', 'X'] else [])
      (field.placed n ((Nat.toDigits 16 n).map Char.toUpper))
  | _ => field.numeral fills [] (field.placed n (Decimal.digits n))

/-- A number with a point, in the notation that a letter stands for. -/
def real (field : Field) (letter : Char) (format : BinaryFormat) (value : BinaryNumber) :
    List UInt8 :=
  let inCase (cs : List Char) : List Char :=
    if letter.isUpper then cs.map Char.toUpper else cs
  match value with
  | .infinite negative => field.numeral false (field.sign negative) (inCase ['i', 'n', 'f'])
  | .unknown negative => field.numeral false (field.sign negative) (inCase ['n', 'a', 'n'])
  | .finite negative mantissa exponent =>
    let places := field.places.getD 6
    let quotient := BinaryNumber.quotient mantissa exponent
    let start := field.sign negative
    match letter.toLower with
    | 'e' =>
      field.numeral true start (inCase (BinaryNumber.scientific field.explicit places quotient))
    | 'g' => field.numeral true start (inCase (BinaryNumber.general field.explicit places quotient))
    | 'a' =>
      field.numeral true (start ++ inCase ['0', 'x'])
        (inCase (BinaryNumber.hexadecimal format field.explicit field.places mantissa exponent))
    | _ => field.numeral true start (BinaryNumber.fixed field.explicit places quotient)

end Field

end IncrementalBuild.Shell.Program
