import IncrementalBuild.Machine.Shell.Expansion
import IncrementalBuild.Machine.Shell.Program.Option

/-!
# Programs

A `Program` takes its arguments and changes the shell, and through it the machine: it reads
and writes the open files, changes the file tree, and sets the exit code.  Here is what
programs have in common: the reading of options, and the reporting of errors.
-/

namespace IncrementalBuild.Shell

/-- A program: what it does to the shell, given its arguments. -/
abbrev Program : Type :=
  List String → Shell → Shell

namespace Program

/-- The path of a name in a directory. -/
def inDirectory (directory name : String) : String :=
  let directory := FileTree.withoutSlash directory
  if directory = "" || directory.endsWith "/" then directory ++ name
  else directory ++ "/" ++ name

/-- The last name of a path, without the slashes after it. -/
def lastName (path : String) : String :=
  ((FileTree.withoutSlash path).splitOn "/").getLastD path

/-- Whether the last name of a path stands for a directory in relation to itself. -/
def isRelative (path : String) : Bool :=
  lastName path = "." || lastName path = ".."

/-- Runs an action on each of several names; the exit code is 1 if any of them fails. -/
def forEach (names : List String) (action : String → Shell → Bool × Shell) (sh : Shell) :
    Shell :=
  let (succeeded, sh) := names.foldl (fun (succeeded, sh) name =>
    let (succeeds, sh) := action name sh
    (succeeded && succeeds, sh)) (true, sh)
  sh.withStatus (if succeeded then 0 else 1)

/-- The outcome of a change to the file tree: on an error, a message that ends in the
reason. -/
def report (complaint : String) (change : Except SystemError Unit × FileTree) (sh : Shell) :
    Bool × Shell :=
  match change with
  | (.ok (), tree) => (true, sh.withTree tree)
  | (.error e, tree) => (false, (sh.withTree tree).warn (complaint ++ ": " ++ e.reason))

/-- A shell in which something has failed, with a message. -/
def failing (message : String) (sh : Shell) : Shell :=
  (sh.warn message).withStatus 1

/-- A shell in which a program has been given wrong arguments; after a misuse, help is
pointed out. -/
def faulted (fault : Fault) (sh : Shell) : Shell :=
  let hint := "Try '" ++ sh.called ++ " --help' for more information.\n"
  let isRefusal : Bool :=
    match fault with
    | .refusal _ => true
    | .unknownLetter _ | .misuse _ => false
  (sh.writeErrorBytes ((sh.called ++ ": ").toUTF8 ++ fault.message
    ++ ("\n" ++ if isRefusal then "" else hint).toUTF8)).withStatus 1

/-- A shell in which a program has been used in a wrong way. -/
def misused (text : String) (sh : Shell) : Shell :=
  faulted (.misuse text) sh

/-- Writes what a program of the shell prints. -/
def emit (name : String) (bytes : ByteArray) (sh : Shell) : Shell :=
  match sh.write 1 bytes with
  | (.ok (), sh) => sh
  | (.error _, sh) => (sh.protest (name ++ ": " ++ name ++ ": I/O error")).withStatus 1

/-- No warnings. -/
def noWarnings (_ : Invocation) : List String :=
  []

/-- A program with options, some of which lead to warnings.  It does nothing if it is asked for
help or for its version before there is a fault in its arguments. -/
def withSwitches (switches : List Switch) (warnings : Invocation → List String)
    (body : Invocation → Shell → Shell) : Program :=
  fun arguments sh =>
    let help := [Switch.long "help" .none, .long "version" .none]
    match Invocation.read (switches ++ help) ⟨[], []⟩ arguments with
    | (call, fault) =>
      let sh := (warnings call).foldl warn sh
      if call.has "help" || call.has "version" then
        sh.withStatus 0
      else
        match fault with
        | some fault => faulted fault sh
        | none => body call sh

/-! ### Work on several names -/

/-- The work of a program on several names, of which it may tell in lines: whether all has
gone well so far, the lines still to be printed, the last first, the reason for which lines
could not be printed, and what went wrong with reading answers. -/
structure Work where
  verbose : Bool
  succeeded : Bool
  lines : List String
  unprinted : Option SystemError
  unread : Option String
  shell : Shell

namespace Work

/-- Work that has not begun. -/
def start (verbose : Bool) (sh : Shell) : Work :=
  ⟨verbose, true, [], none, none, sh⟩

/-- The file tree. -/
def tree (work : Work) : FileTree :=
  work.shell.machine.tree

/-- The directory of the shell. -/
def here (work : Work) : Place :=
  work.shell.here

/-- Work after a change of the file tree. -/
def withTree (work : Work) (tree : FileTree) : Work :=
  { work with shell := work.shell.withTree tree }

/-- Work that tells of something in a line. -/
def tell (work : Work) (line : String) : Work :=
  if work.verbose then { work with lines := line :: work.lines } else work

/-- Prints the lines that are still to be printed. -/
def flush (work : Work) : Work :=
  let text := String.join (work.lines.reverse.map (· ++ "\n"))
  match work.shell.write 1 text.toUTF8 with
  | (.ok (), sh) => { work with lines := [], shell := sh }
  | (.error e, sh) => { work with lines := [], unprinted := some e, shell := sh }

/-- Work with an error message, which comes after the lines before it. -/
def warn (work : Work) (message : String) : Work :=
  let work := work.flush
  { work with shell := work.shell.warn message }

/-- Work that has failed with a name. -/
def fail (work : Work) (message : String) : Work :=
  { work.warn message with succeeded := false }

/-- Work that has failed with a name, for a reason. -/
def failFor (work : Work) (message : String) (e : SystemError) : Work :=
  work.fail (message ++ ": " ++ e.reason)

/-- Asks a question and reads the answer; it is affirmative if it begins with a `y`. -/
def ask (work : Work) (question : String) : Bool × Work :=
  let sh := work.shell.writeError (work.shell.called ++ ": " ++ question ++ "? ")
  let unread := "error closing file"
  match sh.fileNumber? 0, sh.openFile? 0 with
  | some number, some file =>
    match sh.readFile number with
    | (.error _, sh) => (false, { work with unread := some unread, shell := sh })
    | (.ok bytes, sh) =>
      let line := bytes.toList.takeWhile (· ≠ 10)
      let sh := sh.updateFile number fun after =>
        { after with position := file.position + min bytes.size (line.length + 1) }
      (line.head? = some 121 || line.head? = some 89, { work with shell := sh })
  | _, _ =>
    (false,
      { work with
        unread := some (unread ++ ": " ++ SystemError.badDescriptor.reason)
        shell := sh })

/-- The shell when the work is done. -/
def finish (work : Work) : Shell :=
  let work :=
    match work.unread with
    | none => work
    | some fault => work.fail fault
  let work := work.flush
  let work :=
    match work.unprinted with
    | none => work
    | some e => work.failFor "write error" e
  work.shell.withStatus (if work.succeeded then 0 else 1)

end Work

end Program

end IncrementalBuild.Shell
