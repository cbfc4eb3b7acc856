/-!
# Classes of bytes

A class of bytes has a name, by which a pattern refers to it.  Only bytes of ASCII belong to
a class.
-/

namespace IncrementalBuild.Shell

/-- A class of bytes. -/
inductive ByteClass
  | letter
  | letterOrDigit
  | blank
  | control
  | digit
  | visible
  | lowercase
  | printable
  | punctuation
  | space
  | uppercase
  | hexadecimal
deriving DecidableEq, Repr

namespace ByteClass

/-- The classes with their names. -/
def table : List (String × ByteClass) :=
  [("alnum", letterOrDigit), ("cntrl", control), ("lower", lowercase), ("space", space),
    ("alpha", letter), ("digit", digit), ("print", printable), ("upper", uppercase),
    ("blank", blank), ("graph", visible), ("punct", punctuation), ("xdigit", hexadecimal)]

/-- Whether a byte belongs to a class. -/
def contains (byteClass : ByteClass) (b : UInt8) : Bool :=
  let c := Char.ofNat b.toNat
  match byteClass with
  | letter => c.isAlpha
  | letterOrDigit => c.isAlphanum
  | blank => b = 9 || b = 32
  | control => b < 32 || b = 127
  | digit => c.isDigit
  | visible => 33 ≤ b && b ≤ 126
  | lowercase => c.isLower
  | printable => 32 ≤ b && b ≤ 126
  | punctuation => 33 ≤ b && b ≤ 126 && !c.isAlphanum
  | space => b = 32 || (9 ≤ b && b ≤ 13)
  | uppercase => c.isUpper
  | hexadecimal => c.isDigit || (97 ≤ b && b ≤ 102) || (65 ≤ b && b ≤ 70)

end ByteClass

end IncrementalBuild.Shell
