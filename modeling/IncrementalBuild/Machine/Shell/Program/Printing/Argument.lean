import IncrementalBuild.Machine.Shell.Program.Printing.Directive
import IncrementalBuild.Machine.Shell.Program.Printing.Field
import IncrementalBuild.Machine.Shell.Program.Quotation

/-!
# Arguments that are printed

A `Printing` is what has been printed so far, and what is left to be printed.  Directives take
arguments up, and what stands for a number but is none is recorded as a fault.
-/

namespace IncrementalBuild.Shell.Program

/-- What a program has printed, the last byte first, the arguments that are left, what was
wrong, the last first, each with the number of bytes printed before it, the exit code, and
whether the printing has been broken off. -/
structure Printing where
  printer : Printer
  bytes : List UInt8
  arguments : List String
  faults : List (Nat × ByteArray)
  status : Nat
  stopped : Bool

namespace Printing

/-- Prints bytes. -/
def add (printing : Printing) (bytes : List UInt8) : Printing :=
  { printing with bytes := bytes.reverse ++ printing.bytes }

/-- Records what is wrong. -/
def note (printing : Printing) (fault : ByteArray) : Printing :=
  { printing with faults := (printing.bytes.length, fault) :: printing.faults }

/-- Breaks the printing off at a fault. -/
def refuse (printing : Printing) (fault : ByteArray) : Printing :=
  let status :=
    match printing.printer with
    | .shell => 2
    | .file => 1
  { printing.note fault with status := status, stopped := true }

/-- Breaks the printing off. -/
def stop (printing : Printing) : Ending → Printing
  | .cut => { printing with status := 0, stopped := true }
  | .fault message => printing.refuse message

/-- The next argument. -/
def next (printing : Printing) : Option String × Printing :=
  (printing.arguments.head?, { printing with arguments := printing.arguments.tail })

/-! ### Numbers -/

/-- Records what is wrong with an argument. -/
def blame (printing : Printing) (argument : String) (fault : Option String) : Printing :=
  let name :=
    match printing.printer with
    | .shell => argument
    | .file => shownAsText argument
  match fault with
  | none => printing
  | some fault => { printing.note (name ++ ": " ++ fault).toUTF8 with status := 1 }

/-- What is wrong with an argument that stands for a number, given the text after the
number, if there is one, and whether the number is out of range. -/
def fault? (printer : Printer) (argument : String) (rest : Option (List Char)) (isOut : Bool) :
    Option String :=
  let range := if isOut then some "Numerical result out of range" else none
  match printer, rest with
  | .shell, none => if argument = "" then none else some "expected numeric value"
  | .shell, some [] => range
  | .shell, some (_ :: _) => some "not completely converted"
  | .file, none => if argument = "" then none else some "expected a numeric value"
  | .file, some [] => range
  | .file, some (_ :: _) => range.or (some "value not completely converted")

/-- The value of the byte after a quotation mark that an argument begins with. -/
def quotedByte? (printing : Printing) (argument : String) : Option (Nat × Printing) :=
  match argument.toList with
  | '"' :: cs | '\'' :: cs =>
    match printing.printer, bytesIn cs with
    | .shell, bytes => some ((bytes.head?.map UInt8.toNat).getD 0, printing)
    | .file, [] => none
    | .file, [b] => some (b.toNat, printing)
    | .file, b :: others =>
      some (b.toNat,
        printing.note ("warning: ".toUTF8 ++ ⟨others.toArray⟩
          ++ ": character(s) following character constant have been ignored".toUTF8))
  | _ => none

/-- The whole number that an argument stands for.  A function brings it into a range and says
whether it has been outside. -/
def integerIn (printing : Printing) (within : Int → Int × Bool) (argument : String) :
    Int × Printing :=
  match printing.quotedByte? argument with
  | some (value, printing) => (value, printing)
  | none =>
    match readInteger none argument.toList with
    | none => (0, printing.blame argument (fault? printing.printer argument none false))
    | some (value, rest) =>
      let (value, isOut) := within value
      (value, printing.blame argument (fault? printing.printer argument (some rest) isOut))

/-- The whole number with a sign that an argument stands for, as the nearest one of 64
bits. -/
def signedIn (printing : Printing) (argument : String) : Int × Printing :=
  printing.integerIn (fun value =>
    let nearest := max (-9223372036854775808) (min 9223372036854775807 value)
    (nearest, nearest ≠ value)) argument

/-- The whole number without a sign that an argument stands for: the largest one of 64
bits for one that has more, and one below zero counted from the end of the range. -/
def unsignedIn (printing : Printing) (argument : String) : Nat × Printing :=
  let (value, printing) := printing.integerIn (fun value =>
    if value.natAbs < 18446744073709551616 then (value % 18446744073709551616, false)
    else (18446744073709551615, true)) argument
  (value.toNat, printing)

/-- The format of numbers with a point. -/
def format (printing : Printing) : BinaryFormat :=
  match printing.printer with
  | .shell => .double
  | .file => .extended

/-- The number with a point that an argument stands for. -/
def realIn (printing : Printing) (argument : String) : BinaryNumber × Printing :=
  match printing.quotedByte? argument with
  | some (value, printing) => (.finite false value 0, printing)
  | none =>
    match readReal printing.format argument.toList with
    | none =>
      (.finite false 0 0, printing.blame argument (fault? printing.printer argument none false))
    | some (value, isOut, rest) =>
      (value, printing.blame argument (fault? printing.printer argument (some rest) isOut))

/-! ### Fields -/

/-- The number that a measure stands for.  The program of the shell takes only 32 bits of an
argument; the one of a file refuses one that has more, with a `complaint`, unless it is
`lenient` towards numbers below zero. -/
def measure (printing : Printing) (complaint : String) (lenient : Bool) :
    Measure → Int × Printing
  | .stated n => (n, printing)
  | .argument =>
    match printing.next with
    | (none, printing) => (0, printing)
    | (some argument, printing) =>
      let (value, printing) := printing.signedIn argument
      match printing.printer with
      | .shell => (value.bmod 4294967296, printing)
      | .file =>
        if lenient && value < 0 then (-1, printing)
        else if value = value.bmod 4294967296 then (value, printing)
        else (0, printing.refuse (complaint ++ ": " ++ shownAsText argument).toUTF8)

/-- The field that a directive states, and the printing after the arguments it takes up. -/
def field (printing : Printing) (directive : Directive) : Field × Printing :=
  let (width, printing) := printing.measure "invalid field width" false directive.width
  let (places, printing) :=
    if printing.stopped then
      (none, printing)
    else
      match directive.places with
      | none => (none, printing)
      | some measure => (printing.measure "invalid precision" true measure).map some id
  let has (flag : Char) : Bool := directive.flags.contains flag
  ({ leftward := has '-' || width < 0
     zeros := has '0'
     plus := if has '+' then ['+'] else if has ' ' then [' '] else []
     explicit := has '#'
     width := width.natAbs
     places := (places.filter (0 ≤ ·)).map Int.toNat }, printing)

/-- Prints something in a field, unless the field is too large. -/
def addIn (printing : Printing) (field : Field) (shown : Field → List UInt8) : Printing :=
  if field.fits then
    printing.add (shown field)
  else
    printing.refuse (match printing.printer with
      | .shell => "xvsnprintf failed".toUTF8
      | .file =>
        "cannot perform formatted output: Value too large for defined data type".toUTF8)

end Printing

end IncrementalBuild.Shell.Program
