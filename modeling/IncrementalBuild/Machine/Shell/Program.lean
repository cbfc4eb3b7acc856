import IncrementalBuild.Machine.Shell.Program.Control
import IncrementalBuild.Machine.Shell.Program.Copy
import IncrementalBuild.Machine.Shell.Program.Display
import IncrementalBuild.Machine.Shell.Program.Moving
import IncrementalBuild.Machine.Shell.Program.Printing
import IncrementalBuild.Machine.Shell.Program.Removal
import IncrementalBuild.Machine.Shell.Program.Stamping

/-!
# The programs a shell can run

Some programs belong to the shell itself (`Program.own?`).  The others are files: `Program.lookUp`
looks for a name in the directories that the variable `PATH` lists, and follows a path.
-/

namespace IncrementalBuild.Shell.Program

/-- Does nothing, with an exit code. -/
def nothing (status : Nat) : Program :=
  fun _ sh => sh.withStatus status

/-- The program of a name that belongs to the shell itself. -/
def own? (name : String) : Option Program :=
  match name with
  | ":" | "true" | "umask" | "wait" => some (nothing 0)
  | "false" => some (nothing 1)
  | "cd" => some cd
  | "echo" => some echo
  | "exit" => some exit
  | "export" => some (setVariables "export")
  | "readonly" => some (setVariables "readonly")
  | "kill" => some kill
  | "printf" => some printf
  | "pwd" => some pwd
  | "test" => some test
  | "[" => some bracket
  | "unset" => some removeVariables
  | _ => none

/-- The programs that are files, each with its name. -/
def files : List (String × Program) :=
  [("[", bracket), ("cat", cat), ("chmod", nothing 0), ("cp", cp), ("echo", echoFile),
    ("false", nothing 1), ("kill", kill), ("ln", ln), ("mkdir", mkdir), ("mv", mv),
    ("printf", printfFile), ("pwd", pwd), ("rm", rm), ("rmdir", rmdir), ("sleep", nothing 0),
    ("sync", nothing 0), ("test", test), ("touch", touch), ("true", nothing 0)]

/-- The program that a path leads to. -/
def ofPath (sh : Shell) (path : String) : Except SystemError Program :=
  match sh.machine.tree.entryAt sh.here path with
  | .error e => .error e
  | .ok (.device (.program name) _) =>
    match files.lookup name with
    | some program => .ok program
    | none => .error .notFound
  | .ok _ => .error .permissionDenied

/-- The program of a name in the first of several directories that has one; else what is wrong
with the last directory in which the name leads to something, or cannot be followed. -/
def search (sh : Shell) (name : String) :
    (directories : List String) → SystemError → Except SystemError Program
  | [], e => .error e
  | directory :: rest, e =>
    match ofPath sh (if directory = "" then name else directory ++ "/" ++ name) with
    | .ok program => .ok program
    | .error reason => search sh name rest (if reason.isAbsence then e else reason)

/-- The program of a name, or of a path, which is a name with a slash. -/
def lookUp (sh : Shell) (name : String) : Except SystemError Program :=
  if name.toList.contains '/' then ofPath sh name
  else search sh name ((sh.parameter "PATH").splitOn ":") .notFound

/-- Programs of the shell that leave the variables set before them, and end the shell if a
redirection cannot be opened. -/
def isSpecial (name : String) : Bool :=
  [":", ".", "eval", "exec", "exit", "export", "readonly", "return", "set", "shift", "times",
    "trap", "unset"].contains name

/-- The reason for which there is no program, as the shell tells it. -/
def absence (e : SystemError) : String :=
  if e.isAbsence then "not found" else e.reason

end IncrementalBuild.Shell.Program
