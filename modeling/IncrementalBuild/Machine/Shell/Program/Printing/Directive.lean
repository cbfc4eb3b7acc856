import IncrementalBuild.Machine.Shell.Program.Printing.Escape

/-!
# Patterns

A pattern consists of pieces: bytes, some of them written as escape sequences, and directives,
which begin with a percent sign and stand for arguments.  The program of the shell that prints
arguments as a pattern says, and the one of a file, do not read patterns in the same way.
-/

namespace IncrementalBuild.Shell.Program

/-- The two programs that print arguments as a pattern says: that of the shell, and that of a
file. -/
inductive Printer
  | shell
  | file
deriving DecidableEq, Repr

/-- A measure in a directive: a number, or the next argument. -/
inductive Measure
  | stated (n : Nat)
  | argument
deriving DecidableEq, Repr

/-- A directive: its flags, the width of the field, the number of places, the letter that
says what kind of argument is shown, if there is one, and what is written before it. -/
structure Directive where
  flags : List Char
  width : Measure
  places : Option Measure
  letter : Option Char
  start : List Char
deriving DecidableEq, Repr

namespace Directive

/-- The directive as it is written, up to the first byte of its letter. -/
def written (directive : Directive) : ByteArray :=
  ⟨(bytesIn directive.start ++ (bytesIn directive.letter.toList).take 1).toArray⟩

/-- The letters that cannot come after a flag in the program of a file. -/
def excluded (flag : Char) : List Char :=
  match flag with
  | 'I' | '\'' => "aAceEosxX".toList
  | '#' => "cdisu".toList
  | '0' => "cs".toList
  | _ => []

/-- Whether the program of a file knows the directive. -/
def isAllowed (directive : Directive) : Bool :=
  match directive.letter with
  | none => false
  | some c =>
    if c = 'b' || c = 'q' then
      directive.start = ['%']
    else
      "aAcdeEfFgGiosuxX".toList.contains c
        && directive.flags.all (fun flag => !(excluded flag).contains c)
        && !(c = 'c' && directive.places.isSome)

end Directive

/-- A piece of a pattern. -/
inductive Piece
  | bytes (bytes : List UInt8)
  | directive (directive : Directive)
  | ending (ending : Ending)

/-- The measure that a text begins with, and the text after it. -/
def readMeasure : List Char → Measure × List Char
  | '*' :: cs => (.argument, cs)
  | cs => (.stated (Decimal.value (cs.takeWhile Decimal.isDigit)), cs.dropWhile Decimal.isDigit)

/-- The directive after a percent sign, and the text after it. -/
def readDirective (printer : Printer) (cs : List Char) : Directive × List Char :=
  let isFlag : Char → Bool :=
    match printer with
    | .shell => "#-+ 0".toList.contains
    | .file => "#-+ 0I'".toList.contains
  let (flags, rest) := cs.span isFlag
  let (width, rest) := readMeasure rest
  let (places, rest) :=
    match rest with
    | '.' :: rest => (readMeasure rest).map some id
    | rest => (none, rest)
  let rest :=
    match printer with
    | .shell => rest
    | .file => rest.dropWhile "lLhjtz".toList.contains
  (⟨flags, width, places, rest.head?, '%' :: cs.take (cs.length - rest.length)⟩, rest.tail)

/-- The pieces of a pattern. -/
def pieces (printer : Printer) : (fuel : Nat) → List Char → List Piece
  | 0, _ | _, [] => []
  | fuel + 1, '\\' :: cs =>
    match printer with
    | .shell =>
      let (b, rest) := readEscape cs
      .bytes [b] :: pieces printer fuel rest
    | .file =>
      match readSequence false cs with
      | .error ending => [.ending ending]
      | .ok (bytes, rest) => .bytes bytes :: pieces printer fuel rest
  | fuel + 1, '%' :: '%' :: cs => .bytes [37] :: pieces printer fuel cs
  | fuel + 1, '%' :: cs =>
    let (directive, rest) := readDirective printer cs
    .directive directive :: pieces printer fuel rest
  | fuel + 1, c :: cs => .bytes (bytesIn [c]) :: pieces printer fuel cs

end IncrementalBuild.Shell.Program
