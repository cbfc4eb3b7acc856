import IncrementalBuild.Machine.FileTree.Change
import IncrementalBuild.Machine.Shell.Command
import IncrementalBuild.Machine.Shell.Pattern
import IncrementalBuild.System.Host

/-!
# A machine and a shell that runs on it

A `Machine` is a file tree with a current directory, and the output of the program that
runs on it.  The output of commands goes to the output of the program if it is `shared`,
and else it is lost; of their error messages the machine keeps that there were some.

A `Shell` runs on a machine.  It has a directory and variables of its own, the line it has
come to, the exit code of the command run last, and, once it has ended, how it ended.  Its
descriptors lead to open files, each with a position from which it is read and written; a
shell within the shell shares the open files with it.

Programs tell the name by which they have been `called` in their messages.  That an error
message could not be written is recorded (`unheard`), since it makes programs fail.

Only the shell that has been started first is `outermost`.  A signal goes to it: `killed`
says that one has ended it, although a shell within it may still run.  Unless the output is
shared, nobody waits for that shell, and it does not get as far as to start a program.
-/

namespace IncrementalBuild

/-- A file tree, the current directory, and the output of the program. -/
structure Machine where
  tree : FileTree
  here : Place
  out : Writer
  shared : Bool
  complained : Bool

namespace Shell

/-- What an open file leads to; a `buffer` is a pipe or a here-document. -/
inductive Channel
  | output
  | errors
  | device (device : Device)
  | directory
  | file (number : Nat)
  | buffer (bytes : ByteArray)

/-- An open file: what it leads to, the position it is at, and what it has been opened
for. -/
structure OpenFile where
  channel : Channel
  position : Nat
  readable : Bool
  writable : Bool
  appending : Bool

end Shell

/-- A shell on a machine. -/
structure Shell where
  machine : Machine
  here : Place
  directory : Place
  values : List (String × String)
  line : Nat
  status : Nat
  ended : Option ExitStatus
  outermost : Bool
  killed : Bool
  called : String
  unheard : Bool
  files : Array Shell.OpenFile
  descriptors : List (Nat × Option Nat)

namespace Shell

/-- The number of the shell among the running programs. -/
def processNumber : String := "4242"

/-- The text of a place. -/
def placeText (place : Place) : String :=
  "/" ++ "/".intercalate place.reverse

/-- A shell that starts in a directory. -/
def start (machine : Machine) (here : Place) : Shell where
  machine := machine
  here := here
  directory := here
  values :=
    [("HOME", "/root"), ("IFS", " \t\n"), ("OPTIND", "1"), ("PATH", "/usr/bin:/bin"),
      ("PWD", placeText here)]
  line := 1
  status := 0
  ended := none
  outermost := true
  killed := false
  called := "sh"
  unheard := false
  files :=
    #[⟨.device .null, 0, true, false, false⟩, ⟨.output, 0, false, true, false⟩,
      ⟨.errors, 0, false, true, false⟩]
  descriptors := [(0, some 0), (1, some 1), (2, some 2)]

/-- The shell after a command with an exit code. -/
def withStatus (sh : Shell) (status : Nat) : Shell :=
  { sh with status := status }

/-- The shell after an exit with a code. -/
def exit (sh : Shell) (code : Nat) : Shell :=
  { sh with status := code % 256, ended := some (.exited (code % 256)) }

/-- The shell with the file tree changed. -/
def withTree (sh : Shell) (tree : FileTree) : Shell :=
  { sh with machine := { sh.machine with tree := tree } }

/-- How the shell ends once there is nothing left to run. -/
def ending (sh : Shell) : ExitStatus :=
  sh.ended.getD (.exited sh.status)

/-! ### Variables -/

/-- The value of a parameter. -/
def parameter (sh : Shell) (name : String) : String :=
  match name with
  | "0" => "sh"
  | "$" => processNumber
  | "?" => Decimal.ofNat sh.status
  | "#" => "0"
  | name => (sh.values.lookup name).getD ""

/-- The shell with a variable set. -/
def assign (sh : Shell) (name value : String) : Shell :=
  { sh with values := (name, value) :: sh.values.filter (·.1 ≠ name) }

/-! ### Open files -/

/-- The number of the open file that a descriptor leads to. -/
def fileNumber? (sh : Shell) (descriptor : Nat) : Option Nat :=
  (sh.descriptors.lookup descriptor).join

/-- The open file that a descriptor leads to. -/
def openFile? (sh : Shell) (descriptor : Nat) : Option OpenFile :=
  (sh.fileNumber? descriptor).bind (sh.files[·]?)

/-- The shell with a descriptor leading to an open file of a number, or to none. -/
def redirect (sh : Shell) (descriptor : Nat) (number : Option Nat) : Shell :=
  { sh with descriptors := (descriptor, number) :: sh.descriptors.filter (·.1 ≠ descriptor) }

/-- The shell with an open file of a number changed. -/
def updateFile (sh : Shell) (number : Nat) (f : OpenFile → OpenFile) : Shell :=
  { sh with files := sh.files.modify number f }

/-- Another open file, by its number. -/
def addFile (sh : Shell) (file : OpenFile) : Nat × Shell :=
  (sh.files.size, { sh with files := sh.files.push file })

/-- The shell with a descriptor leading to another open file. -/
def openAs (sh : Shell) (descriptor : Nat) (file : OpenFile) : Shell :=
  let (number, sh) := sh.addFile file
  sh.redirect descriptor (some number)

/-- An open file at its beginning, for what a redirection does with it. -/
def OpenFile.start (channel : Channel) (direction : Direction) : OpenFile where
  channel := channel
  position := 0
  readable := direction = .outOf || direction = .within
  writable := direction ≠ .outOf
  appending := direction = .onto

/-- Opens what a channel leads to.  A file that is to be written anew loses its bytes. -/
def openChannel (sh : Shell) (channel : Channel) (direction : Direction) :
    Except SystemError Nat × Shell :=
  match channel, direction with
  | .file number, .into =>
    let sh := sh.withTree (sh.machine.tree.setBytes number .empty)
    let (opened, sh) := sh.addFile (.start (.file number) direction)
    (.ok opened, sh)
  | .directory, .into | .directory, .onto | .directory, .within => (.error .isADirectory, sh)
  | channel, direction =>
    let (opened, sh) := sh.addFile (.start channel direction)
    (.ok opened, sh)

/-- Opens what an entry leads to.  What stands for a stream leads to what the stream leads
to, and shares it unless it can be opened once more. -/
def openEntry (sh : Shell) (direction : Direction) :
    Entry → Except SystemError Nat × Shell
  | .file number => sh.openChannel (.file number) direction
  | .directory _ => sh.openChannel .directory direction
  | .link .. => (.error .tooManyLinks, sh)
  | .device (.stream descriptor) _ =>
    match sh.fileNumber? descriptor, sh.openFile? descriptor with
    | some number, some file =>
      match file.channel with
      | .output | .errors | .buffer _ => (.ok number, sh)
      | channel => sh.openChannel channel direction
    | _, _ => (.error .notFound, sh)
  | .device device _ => sh.openChannel (.device device) direction

/-- What an entry stands for: a stream that leads to a file stands for the file. -/
def behind (sh : Shell) (entry : Entry) : Except SystemError Entry :=
  match entry with
  | .device (.stream descriptor) _ =>
    match sh.openFile? descriptor with
    | none => .error .notFound
    | some file =>
      match file.channel with
      | .file number => .ok (.file number)
      | _ => .ok entry
  | entry => .ok entry

/-- Opens what a path leads to; the number of the open file. -/
def openPath (sh : Shell) (direction : Direction) (path : String) :
    Except SystemError Nat × Shell :=
  if direction = .outOf then
    match sh.machine.tree.entryAt sh.here path with
    | .error e => (.error e, sh)
    | .ok entry => sh.openEntry direction entry
  else
    match sh.machine.tree.openFile sh.here path with
    | (.error e, tree) => (.error e, sh.withTree tree)
    | (.ok entry, tree) => (sh.withTree tree).openEntry direction entry

/-! ### Reading and writing -/

/-- The bytes that an open file leads to. -/
def bytesOf (sh : Shell) (file : OpenFile) : ByteArray :=
  match file.channel with
  | .file number => (sh.machine.tree.content number).bytes
  | .buffer bytes => bytes
  | .output | .errors | .device _ | .directory => .empty

/-- Reads what is left of an open file. -/
def readFile (sh : Shell) (number : Nat) : Except SystemError ByteArray × Shell :=
  match sh.files[number]? with
  | none => (.error .badDescriptor, sh)
  | some file =>
    if !file.readable then
      (.error .badDescriptor, sh)
    else
      match file.channel with
      | .directory => (.error .isADirectory, sh)
      | _ =>
        let bytes := sh.bytesOf file
        (.ok (bytes.extract file.position bytes.size),
          sh.updateFile number fun file =>
            { file with position := max file.position bytes.size })

/-- Writes bytes to an open file. -/
def writeFile (sh : Shell) (number : Nat) (bytes : ByteArray) :
    Except SystemError Unit × Shell :=
  match sh.files[number]? with
  | none => (.error .badDescriptor, sh)
  | some file =>
    if !file.writable then
      (.error .badDescriptor, sh)
    else
      match file.channel with
      | .output =>
        if sh.machine.shared then
          let out := (sh.machine.out.writeBytes bytes).2
          (.ok (), { sh with machine := { sh.machine with out := out } })
        else
          (.ok (), sh)
      | .errors => (.ok (), { sh with machine := { sh.machine with complained := true } })
      | .device .full => (.error .noSpace, sh)
      | .device _ => (.ok (), sh)
      | .directory => (.error .badDescriptor, sh)
      | .file content =>
        let tree := sh.machine.tree
        let position := if file.appending then (tree.content content).bytes.size else file.position
        (.ok (),
          (sh.withTree (tree.writeAt content position bytes)).updateFile number fun file =>
            { file with position := position + bytes.size })
      | .buffer old =>
        (.ok (),
          sh.updateFile number fun file => { file with channel := .buffer (old ++ bytes) })

/-- Reads what is left of the open file of a descriptor. -/
def read (sh : Shell) (descriptor : Nat) : Except SystemError ByteArray × Shell :=
  match sh.fileNumber? descriptor with
  | none => (.error .badDescriptor, sh)
  | some number => sh.readFile number

/-- Writes bytes, if there are any, to the open file of a descriptor. -/
def write (sh : Shell) (descriptor : Nat) (bytes : ByteArray) :
    Except SystemError Unit × Shell :=
  if bytes.isEmpty then
    (.ok (), sh)
  else
    match sh.fileNumber? descriptor with
    | none => (.error .badDescriptor, sh)
    | some number => sh.writeFile number bytes

/-- Writes bytes to the error messages, and records if that is not possible. -/
def writeErrorBytes (sh : Shell) (bytes : ByteArray) : Shell :=
  match sh.write 2 bytes with
  | (.ok (), sh) => sh
  | (.error _, sh) => { sh with unheard := true }

/-- Writes a text to the error messages. -/
def writeError (sh : Shell) (text : String) : Shell :=
  sh.writeErrorBytes text.toUTF8

/-- Writes an error message in a line of its own. -/
def complain (sh : Shell) (text : String) : Shell :=
  sh.writeError (text ++ "\n")

/-- Writes an error message of the program that runs. -/
def warnBytes (sh : Shell) (bytes : ByteArray) : Shell :=
  sh.writeErrorBytes ((sh.called ++ ": ").toUTF8 ++ bytes ++ "\n".toUTF8)

/-- Writes a text as an error message of the program that runs. -/
def warn (sh : Shell) (text : String) : Shell :=
  sh.warnBytes text.toUTF8

/-- Writes an error message of the shell itself, which tells the line it has come to. -/
def protestBytes (sh : Shell) (bytes : ByteArray) : Shell :=
  sh.writeErrorBytes
    (("sh: " ++ Decimal.ofNat sh.line ++ ": ").toUTF8 ++ bytes ++ "\n".toUTF8)

/-- Writes a text as an error message of the shell itself. -/
def protest (sh : Shell) (text : String) : Shell :=
  sh.protestBytes text.toUTF8

/-- The shell around a shell of its own that has run to its end. -/
def leave (inner outer : Shell) : Shell :=
  { inner with
    here := outer.here
    directory := outer.directory
    values := outer.values
    ended := if inner.killed && outer.outermost then some .signalled else none
    outermost := outer.outermost
    descriptors := outer.descriptors }

end Shell

end IncrementalBuild
