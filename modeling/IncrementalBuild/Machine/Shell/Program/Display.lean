import IncrementalBuild.Machine.Shell.Program.Basic

/-!
# Showing files

`cat` writes the bytes of files one after the other.  It can number lines, drop all but the
first of several empty lines, and show bytes that cannot be seen: a tab as `^I`, the end of
a line as `$`, a control byte as `^` with a letter, and a byte beyond ASCII as `M-` with
what the rest of it is shown as.

Lines are counted over all the files.  `Screen` is what has been shown so far.
-/

namespace IncrementalBuild.Shell.Program

/-- The way in which bytes are shown. -/
structure Display where
  numbersLines : Bool
  numbersEmpty : Bool
  squeezes : Bool
  showsEnds : Bool
  showsTabs : Bool
  showsControls : Bool
deriving DecidableEq, Repr

/-- What has been shown: the bytes, the last first, the number of the last line that has
one, how many line ends came last, and whether a carriage return is still held back.  There
is no count of line ends within a line. -/
structure Screen where
  written : List UInt8
  line : Nat
  ends : Option Nat
  holdsReturn : Bool

/-- The bytes are shown as they are. -/
def Display.isPlain (display : Display) : Bool :=
  !(display.numbersLines || display.squeezes || display.showsEnds || display.showsTabs
    || display.showsControls)

namespace Screen

/-- Shows a text of ASCII characters. -/
def add (screen : Screen) (text : String) : Screen :=
  { screen with written := text.toUTF8.toList.reverse ++ screen.written }

/-- Shows the number of the next line. -/
def addNumber (screen : Screen) : Screen :=
  let digits := Decimal.ofNat (screen.line + 1)
  let padding := String.ofList (List.replicate (6 - digits.length) ' ')
  { screen with line := screen.line + 1 }.add (padding ++ digits ++ "\t")

/-- Shows a carriage return that has been held back. -/
def addReturn (screen : Screen) : Screen :=
  if screen.holdsReturn then { screen.add "\r" with holdsReturn := false } else screen

/-- Shows the end of a line. -/
def addEnd (display : Display) (screen : Screen) : Screen :=
  let count := (screen.ends.map (· + 1)).getD 0
  if 2 ≤ count && display.squeezes then
    { screen with ends := some 2 }
  else
    let screen := { screen with ends := some (min count 2) }
    let screen :=
      if 0 < count && display.numbersLines && display.numbersEmpty then screen.addNumber
      else screen
    let screen :=
      if !display.showsEnds then screen
      else if screen.holdsReturn then { screen.add "^M$" with holdsReturn := false }
      else screen.add "$"
    screen.add "\n"

/-- Shows a byte within a line. -/
def addByte (display : Display) (screen : Screen) (b : UInt8) : Screen :=
  let visible (b : UInt8) : List UInt8 :=
    if b < 32 then [94, b + 64] else if b = 127 then [94, 63] else [b]
  let shown :=
    if b = 9 then (if display.showsTabs then [94, 73] else [b])
    else if !display.showsControls then [b]
    else if b < 128 then visible b
    else [77, 45] ++ visible (b - 128)
  let screen := screen.addReturn
  let screen :=
    if screen.ends.isSome && display.numbersLines then screen.addNumber else screen
  if b = 13 && display.showsEnds && !display.showsControls then
    { screen with holdsReturn := true, ends := none }
  else
    { screen with written := shown.reverse ++ screen.written, ends := none }

/-- Shows bytes. -/
def addBytes (display : Display) (screen : Screen) (bytes : ByteArray) : Screen :=
  bytes.toList.foldl (fun screen b =>
    if b = 10 then screen.addEnd display else screen.addByte display b) screen

end Screen

/-- Whether the output is an open file of which something is still to be read. -/
def feedsItself (sh : Shell) (input : Nat) : Bool :=
  match sh.files[input]?, sh.openFile? 1 with
  | some file, some output =>
    match file.channel, output.channel with
    | .file number, .file other => number = other && file.position < (sh.bytesOf file).size
    | _, _ => false
  | _, _ => false

/-- The work of `cat`: the screen, whether all has gone well so far, and whether the output
has failed. -/
structure Showing where
  screen : Screen
  succeeded : Bool
  broken : Bool
  shell : Shell

/-- Records that a file could not be shown. -/
def Showing.fail (showing : Showing) (name reason : String) : Showing :=
  { showing with
    succeeded := false
    shell := showing.shell.warn (shownIfNeeded name ++ ": " ++ reason) }

/-- Writes out what is on the screen. -/
def Showing.flush (showing : Showing) : Showing :=
  let bytes := ByteArray.mk showing.screen.written.reverse.toArray
  let screen := { showing.screen with written := [] }
  match showing.shell.write 1 bytes with
  | (.ok (), sh) => { showing with screen := screen, shell := sh }
  | (.error e, sh) =>
    { showing with
      screen := screen
      succeeded := false
      broken := true
      shell := sh.warn ("write error: " ++ e.reason) }

/-- Shows what is left of an open file, which has a name. -/
def Showing.addFile (showing : Showing) (display : Display) (name : String) (number : Nat) :
    Showing :=
  if feedsItself showing.shell number then
    showing.fail name "input file is output file"
  else
    match showing.shell.readFile number with
    | (.error e, sh) => { showing with shell := sh }.fail name e.reason
    | (.ok bytes, sh) =>
      let screen :=
        if display.isPlain then
          { showing.screen with written := bytes.toList.reverse ++ showing.screen.written }
        else
          showing.screen.addBytes display bytes
      { showing with screen := screen, shell := sh }.flush

/-- Shows what a name stands for, unless the output has failed. -/
def Showing.add (display : Display) (showing : Showing) (name : String) : Showing :=
  if showing.broken then
    showing
  else if name = "-" then
    match showing.shell.fileNumber? 0 with
    | none => showing.fail name SystemError.badDescriptor.reason
    | some number => showing.addFile display name number
  else
    match showing.shell.openPath .outOf name with
    | (.error e, sh) => { showing with shell := sh }.fail name e.reason
    | (.ok number, sh) => { showing with shell := sh }.addFile display name number

/-- The options of `cat`. -/
def catSwitches : List Switch :=
  [.plain 'b' ["number-nonblank"], .plain 'n' ["number"], .plain 's' ["squeeze-blank"],
    .plain 'v' ["show-nonprinting"], .plain 'E' ["show-ends"], .plain 'T' ["show-tabs"],
    .plain 'A' ["show-all"], .plain 'e' [], .plain 't' [], .plain 'u' []]

/-- The way in which options ask for bytes to be shown. -/
def Display.ofOptions (call : Invocation) : Display where
  numbersLines := call.has "n" || call.has "b"
  numbersEmpty := !call.has "b"
  squeezes := call.has "s"
  showsEnds := call.has "E" || call.has "e" || call.has "A"
  showsTabs := call.has "T" || call.has "t" || call.has "A"
  showsControls := call.has "v" || call.has "e" || call.has "t" || call.has "A"

/-- Writes the bytes of files, or of the input where no file is named. -/
def cat : Program := withSwitches catSwitches noWarnings fun call sh =>
  if (sh.fileNumber? 1).isNone then
    failing ("standard output: " ++ SystemError.badDescriptor.reason) sh
  else
    let names := if call.operands.isEmpty then ["-"] else call.operands
    let showing :=
      names.foldl (Showing.add (.ofOptions call)) ⟨⟨[], 0, some 0, false⟩, true, false, sh⟩
    let showing :=
      if showing.broken then showing
      else { showing with screen := showing.screen.addReturn }.flush
    if !showing.broken && names.contains "-" && (sh.fileNumber? 0).isNone then
      failing ("closing standard input: " ++ SystemError.badDescriptor.reason) showing.shell
    else
      showing.shell.withStatus (if showing.succeeded then 0 else 1)

end IncrementalBuild.Shell.Program
