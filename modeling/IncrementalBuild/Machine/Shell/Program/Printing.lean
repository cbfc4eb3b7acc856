import IncrementalBuild.Machine.Shell.Program.Basic
import IncrementalBuild.Machine.Shell.Program.Printing.Argument

/-!
# Programs that print

`echo` prints its arguments, and `printf` prints arguments as a pattern says, which is used
again until no argument is left.  The shell has these programs, and there are files with
programs of the same names.
-/

namespace IncrementalBuild.Shell.Program

namespace Printing

/-- Prints an argument in which escape sequences are replaced. -/
def addSequences (printing : Printing) (field : Field) (argument : String) : Printing :=
  let cs := argument.toList
  match printing.printer with
  | .shell =>
    let (bytes, cut) := unescape (cs.length + 1) cs
    let printing := printing.addIn field (·.text bytes)
    { printing with stopped := printing.stopped || cut }
  | .file =>
    let (bytes, ending) := replaceSequences (cs.length + 1) cs
    match ending with
    | none => printing.add bytes
    | some ending => (printing.add bytes).stop ending

/-- Prints an argument as a directive says, given the field that the directive states. -/
def addArgument (printing : Printing) (field : Field) (directive : Directive) : Printing :=
  let unknown : Printing :=
    printing.refuse (directive.written ++ ": invalid directive".toUTF8)
  match directive.letter with
  | none => printing.refuse "missing format character".toUTF8
  | some letter =>
    let (argument?, after) := printing.next
    let argument := argument?.getD ""
    match letter with
    | 's' => after.addIn field (·.text argument.toUTF8.toList)
    | 'c' => after.addIn field (·.pad [(argument.toUTF8.toList.head?).getD 0])
    | 'b' => after.addSequences field argument
    | 'q' =>
      match printing.printer with
      | .shell => unknown
      | .file => after.add ((argument?.map shownInShell).getD "").toUTF8.toList
    | letter =>
      if letter = 'd' || letter = 'i' then
        let (value, after) := after.signedIn argument
        after.addIn field (·.signed value)
      else if "ouxX".toList.contains letter then
        let (value, after) := after.unsignedIn argument
        after.addIn field (·.unsigned letter value)
      else if "aAeEfFgG".toList.contains letter then
        let (value, after) := after.realIn argument
        after.addIn field (·.real letter after.format value)
      else
        unknown

/-- Prints arguments as a directive says. -/
def addDirective (printing : Printing) (directive : Directive) : Printing :=
  let (field, printing) := printing.field directive
  if printing.stopped then
    printing
  else if printing.printer = .file && !directive.isAllowed then
    printing.refuse (directive.written ++ ": invalid conversion specification".toUTF8)
  else
    printing.addArgument field directive

/-- Prints pieces of a pattern. -/
def addPieces : List Piece → Printing → Printing
  | [], printing => printing
  | piece :: rest, printing =>
    let printing :=
      match piece with
      | .bytes bytes => printing.add bytes
      | .directive directive => printing.addDirective directive
      | .ending ending => printing.stop ending
    if printing.stopped then printing else addPieces rest printing

/-- Prints a pattern until no argument is left, or it uses none. -/
def addAll (pattern : List Piece) : (fuel : Nat) → Printing → Printing
  | 0, printing => printing
  | fuel + 1, printing =>
    let after := addPieces pattern printing
    if after.stopped || after.arguments.isEmpty
        || after.arguments.length = printing.arguments.length then
      after
    else
      addAll pattern fuel after

/-- What a program prints for a pattern and arguments. -/
def ofPattern (printer : Printer) (pattern : String) (arguments : List String) : Printing :=
  addAll (pieces printer (pattern.length + 1) pattern.toList) (arguments.length + 1)
    ⟨printer, [], arguments, [], 0, false⟩

end Printing

/-! ### Programs of the shell -/

/-- The bytes that `echo` prints for arguments. -/
def echoed (newline : Bool) : List String → List UInt8
  | [] => if newline then [10] else []
  | argument :: rest =>
    let (bytes, cut) := unescape (argument.length + 1) argument.toList
    if cut then bytes
    else if rest.isEmpty then bytes ++ echoed newline rest
    else bytes ++ 32 :: echoed newline rest

/-- Prints its arguments, separated by spaces, in a line. -/
def echo : Program := fun arguments sh =>
  let bytes :=
    match arguments with
    | "-n" :: rest => echoed false rest
    | arguments => echoed true arguments
  emit "echo" (ByteArray.mk bytes.toArray) (sh.withStatus 0)

/-- Prints its arguments as a pattern says. -/
def printf : Program := fun arguments sh =>
  let operands := if arguments.head? = some "--" then arguments.tail else arguments
  let option? :=
    match arguments.head?.map fun argument => argument.toUTF8.toList with
    | some (45 :: b :: _) => if arguments.head? = some "--" then none else some b
    | _ => none
  match option?, operands with
  | some b, _ =>
    (sh.protestBytes ("printf: Illegal option -".toUTF8 ++ ⟨#[b]⟩)).withStatus 2
  | none, [] => (sh.protest "printf: usage: printf format [arg ...]").withStatus 2
  | none, pattern :: rest =>
    let printing := Printing.ofPattern .shell pattern rest
    let sh := printing.faults.reverse.foldl (fun sh (_, fault) =>
      sh.protestBytes ("printf: ".toUTF8 ++ fault)) sh
    emit "printf" (ByteArray.mk printing.bytes.reverse.toArray) (sh.withStatus printing.status)

/-! ### Programs of files -/

/-- Prints bytes, with messages at positions among them; the exit code is 1 if that is not
possible. -/
def printAll (bytes : ByteArray) (messages : List (Nat × ByteArray)) (status : Nat)
    (sh : Shell) : Shell :=
  let write (start stop : Nat) (result : Except SystemError Unit × Shell) :
      Except SystemError Unit × Shell :=
    match result with
    | (.ok (), sh) => sh.write 1 (bytes.extract start stop)
    | failed => failed
  let (start, result) := messages.foldl (fun (start, result) (position, message) =>
    let (result, sh) := write start position result
    (position, (result, sh.warnBytes message))) (0, (.ok (), sh))
  match write start bytes.size result with
  | (.ok (), sh) => sh.withStatus status
  | (.error e, sh) => failing ("write error: " ++ e.reason) sh

/-- Whether an argument of `echo` consists of letters for options. -/
def isEchoOption (argument : String) : Bool :=
  match argument.toList with
  | '-' :: c :: cs => (c :: cs).all "eEn".toList.contains
  | _ => false

/-- The bytes that the `echo` of a file prints for texts in which sequences are replaced. -/
def echoedSequences (newline : Bool) : List String → List UInt8
  | [] => if newline then [10] else []
  | argument :: rest =>
    let (bytes, cut) := readEchoed (argument.length + 1) argument.toList
    if cut then bytes
    else if rest.isEmpty then bytes ++ echoedSequences newline rest
    else bytes ++ 32 :: echoedSequences newline rest

/-- Whether the only argument asks for help or for the version. -/
def asksForHelp (arguments : List String) : Bool :=
  arguments = ["--help"] || arguments = ["--version"]

/-- Prints its arguments, separated by spaces, in a line. -/
def echoFile : Program := fun arguments sh =>
  if asksForHelp arguments then
    sh.withStatus 0
  else
    let letters := (arguments.takeWhile isEchoOption).flatMap fun argument =>
      argument.toList.drop 1
    let texts := arguments.dropWhile isEchoOption
    let newline := !letters.contains 'n'
    let bytes :=
      if (letters.reverse.find? (· ≠ 'n')) = some 'e' then echoedSequences newline texts
      else bytesIn (" ".intercalate texts).toList ++ (if newline then [10] else [])
    printAll ⟨bytes.toArray⟩ [] 0 sh

/-- Prints its arguments as a pattern says. -/
def printfFile : Program := fun arguments sh =>
  if asksForHelp arguments then
    sh.withStatus 0
  else
    match if arguments.head? = some "--" then arguments.tail else arguments with
    | [] => misused "missing operand" sh
    | pattern :: rest =>
      let printing := Printing.ofPattern .file pattern rest
      let printing :=
        match printing.stopped, printing.arguments with
        | false, extra :: _ =>
          printing.note
            ("warning: ignoring excess arguments, starting with " ++ shownAsText extra).toUTF8
        | _, _ => printing
      printAll ⟨printing.bytes.reverse.toArray⟩ printing.faults.reverse printing.status sh

end IncrementalBuild.Shell.Program
