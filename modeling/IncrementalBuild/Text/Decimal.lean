/-!
# Decimal numerals

`Decimal.ofNat` and `Decimal.ofInt` write a number in base ten without superfluous zeros,
`Decimal.fixed` writes the last digits of a number with a given number of places, and
`Decimal.toInt?` reads a numeral with an optional sign.
-/

namespace IncrementalBuild.Decimal

/-- The last digit of a number. -/
def lastDigit (n : Nat) : Char :=
  Char.ofNat ('0'.toNat + n % 10)

/-- The digits of a number. -/
def digits (n : Nat) : List Char :=
  if n < 10 then [lastDigit n] else digits (n / 10) ++ [lastDigit n]
termination_by n

/-- The last `places` digits of a number, with zeros in front where it has fewer. -/
def fixed : (places n : Nat) → List Char
  | 0, _ => []
  | places + 1, n => fixed places (n / 10) ++ [lastDigit n]

/-- The numeral of a natural number. -/
def ofNat (n : Nat) : String :=
  String.ofList (digits n)

/-- The numeral of an integer. -/
def ofInt : Int → String
  | .ofNat n => ofNat n
  | .negSucc n => "-" ++ ofNat (n + 1)

/-- Whether a character is a digit. -/
def isDigit (c : Char) : Bool :=
  '0' ≤ c && c ≤ '9'

/-- The value of a digit. -/
def digitValue (c : Char) : Nat :=
  c.toNat - '0'.toNat

/-- The value of a run of digits. -/
def value (cs : List Char) : Nat :=
  cs.foldl (fun total c => 10 * total + digitValue c) 0

/-- The number that a non-empty run of digits stands for. -/
def toNat? (cs : List Char) : Option Nat :=
  if cs.isEmpty || !cs.all isDigit then none else some (value cs)

/-- The number that a run of digits stands for, with a plus or minus sign in front or with
no sign. -/
def toInt? : List Char → Option Int
  | '-' :: cs => (toNat? cs).map fun n => -(n : Int)
  | '+' :: cs => (toNat? cs).map fun n => (n : Int)
  | cs => (toNat? cs).map fun n => (n : Int)

theorem length_fixed (places n : Nat) :
  (fixed places n).length = places
  := by
  induction places generalizing n with
  | zero => rfl
  | succ places ih => simp [fixed, ih]

end IncrementalBuild.Decimal
