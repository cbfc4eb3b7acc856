import IncrementalBuild.Machine.Shell.Program.Basic
import IncrementalBuild.Machine.Shell.Program.Numeral
import IncrementalBuild.Machine.Shell.Program.Signal

/-!
# Programs of the shell itself

`test` answers a question by its exit code; `cd` changes the directory of the shell and
`pwd` prints it; `exit` ends the shell, and `kill` can end it by a signal;
`setVariables` and `removeVariables` change its variables.
-/

namespace IncrementalBuild.Shell.Program

/-- Writes an error message of a program of the shell, and gives it the exit code 2. -/
def refused (name fault : String) (sh : Shell) : Shell :=
  (sh.protest (name ++ ": " ++ fault)).withStatus 2

/-- Writes an error message of a program of the shell about a letter that is no option, of which
it shows the first byte, and gives it the exit code 2. -/
def refusedLetter (name : String) (c : Char) (sh : Shell) : Shell :=
  let byte := ((String.ofList [c]).toUTF8.toList.head?).getD 0
  (sh.protestBytes ((name ++ ": Illegal option -").toUTF8 ++ ⟨#[byte]⟩)).withStatus 2

/-- The letters of options that arguments begin with, and the operands, or the first letter
that is no option. -/
def readFlags (letters : List Char) : List String → Except Char (List Char × List String)
  | [] => .ok ([], [])
  | argument :: rest =>
    match argument.toList with
    | ['-', '-'] => .ok ([], rest)
    | '-' :: c :: cs =>
      match (c :: cs).find? fun c => !letters.contains c with
      | some c => .error c
      | none =>
        (readFlags letters rest).map fun (flags, operands) => ((c :: cs) ++ flags, operands)
    | _ => .ok ([], argument :: rest)

/-! ### Conditions -/

/-- Whether a condition on files and texts holds; none if it is none. -/
def condition (sh : Shell) : List String → Option Bool
  | [] => some false
  | "!" :: rest => (condition sh rest).map (!·)
  | [text] => some (text ≠ "")
  | ["-n", text] => some (text ≠ "")
  | ["-z", text] => some (text = "")
  | ["-e", name] => some ((sh.machine.tree.stat sh.here name).isOk)
  | ["-f", name] => some (sh.machine.tree.isFile sh.here name)
  | ["-d", name] => some (sh.machine.tree.isDirectory sh.here name)
  | ["-s", name] =>
    some (match sh.machine.tree.read sh.here name with
      | .ok content => !content.isEmpty
      | .error _ => false)
  | [left, "=", right] => some (left = right)
  | [left, "!=", right] => some (left ≠ right)
  | _ => none

/-- Tests a condition. -/
def test : Program := fun arguments sh =>
  match condition sh arguments with
  | some holds => sh.withStatus (if holds then 0 else 1)
  | none => refused "test" "unexpected operator" sh

/-- Tests a condition before an argument that begins with a closing bracket. -/
def bracket : Program := fun arguments sh =>
  if arguments.getLast?.any (·.startsWith "]") then test arguments.dropLast sh
  else refused "[" "missing ]" sh

/-! ### Directories -/

/-- The place that a path names where `..` takes away the name before it, whatever that
is. -/
def namedPlace (directory : Place) (path : String) : Place :=
  (FileTree.steps path).foldl (fun place name =>
    if name = "." then place else if name = ".." then place.tail else name :: place)
    (FileTree.origin directory path)

/-- Whether options ask for directories without links: the last of them counts. -/
def isPhysical (flags : List Char) : Bool :=
  flags.getLast? = some 'P'

/-- The shell in another directory. -/
def enter (here directory : Place) (sh : Shell) : Shell :=
  let sh := sh.assign "OLDPWD" (placeText sh.directory)
  { sh.assign "PWD" (placeText directory) with here := here, directory := directory, status := 0 }

/-- Changes the directory of the shell. -/
def cd : Program := fun arguments sh =>
  match readFlags ['L', 'P'] arguments with
  | .error c => refusedLetter "cd" c sh
  | .ok (flags, operands) =>
    let name := operands.head?.getD (sh.parameter "HOME")
    let goesBack : Bool := name = "-"
    let name := if goesBack then sh.parameter "OLDPWD" else name
    let path := if name = "" then "." else name
    let tree := sh.machine.tree
    let entered :=
      if isPhysical flags then
        (tree.directoryAt sh.here path).map fun here => (here, here)
      else
        let directory := namedPlace sh.directory path
        (tree.directoryAt [] (placeText directory)).map fun here => (here, directory)
    match entered with
    | .error _ => refused "cd" ("can't cd to " ++ name) sh
    | .ok (here, directory) =>
      let sh := enter here directory sh
      if goesBack then emit "cd" (placeText directory ++ "\n").toUTF8 sh else sh

/-- Writes the directory of the shell. -/
def pwd : Program := fun arguments sh =>
  match readFlags ['L', 'P'] arguments with
  | .error c => refusedLetter "pwd" c sh
  | .ok (flags, _) =>
    let place := if isPhysical flags then sh.here else sh.directory
    emit "pwd" (placeText place ++ "\n").toUTF8 (sh.withStatus 0)

/-! ### The end of the shell -/

/-- The number, without a sign, that a text stands for where the shell reads one. -/
def count? (text : String) : Option Nat :=
  ((integer? text).filter fun n => 0 ≤ n && n < 2147483648).map Int.toNat

/-- Ends the shell with an exit code. -/
def exit : Program := fun arguments sh =>
  match arguments.head? with
  | none => sh.exit sh.status
  | some text =>
    match count? text with
    | some code => sh.exit code
    | none => (refused "exit" ("Illegal number: " ++ text) sh).exit 2

/-- The shell when a signal is sent to the outermost one.  It ends at once if it is that
one. -/
def signalled (signal : Nat) (sh : Shell) : Shell :=
  if !endsProgram signal then sh
  else if sh.outermost then { sh with ended := some .signalled, killed := true }
  else { sh with killed := true }

/-- Sends a signal to processes, of which only the outermost shell is there. -/
def sendTo (signal : Nat) (succeeded : Bool) : List String → Shell → Shell
  | [], sh => sh.withStatus (if succeeded then 0 else 1)
  | target :: rest, sh =>
    let digits := if target.startsWith "-" then String.ofList (target.toList.drop 1) else target
    match count? digits with
    | none =>
      if target.startsWith "%" then refused "kill" ("No such job: " ++ target) sh
      else refused "kill" ("Illegal number: " ++ digits) sh
    | some number =>
      if some number = count? processNumber && digits = target then
        let sh := signalled signal sh
        if sh.ended.isSome then sh else sendTo signal succeeded rest sh
      else
        sendTo signal false rest (sh.protest "kill: No such process\n")

/-- How `kill` is used. -/
def killUsage : String :=
  "Usage: kill [-s sigspec | -signum | -sigspec] [pid | job]... or\nkill -l [exitstatus]"

/-- Prints the names of signals: of all, or of the one that a number or an exit code stands
for. -/
def listSignals (operands : List String) (sh : Shell) : Shell :=
  let print (lines : List String) : Shell :=
    emit "kill" (String.join (lines.map (· ++ "\n"))).toUTF8 (sh.withStatus 0)
  match operands.head? with
  | none => print ((List.range (lastSignal + 1)).map signalName)
  | some text =>
    match count? text with
    | none => refused "kill" ("Illegal number: " ++ text) sh
    | some number =>
      let signal := if 128 < number then number - 128 else number
      if 0 < signal && signal ≤ lastSignal then print [signalName signal]
      else refused "kill" ("invalid signal number or exit status: " ++ text) sh

/-- What the options of `kill` ask for. -/
inductive KillRequest
  | send (signal : Nat) (targets : List String)
  | list (operands : List String)
  | unknownLetter (letter : Char)
  | fault (message : String)

/-- What the options of `kill` ask for, where none has named a signal by itself. -/
def KillRequest.ofOptions (lists : Bool) (signal : Option Nat) : List String → KillRequest
  | [] => if lists then .list [] else .send (signal.getD 15) []
  | argument :: rest =>
    let conclude (operands : List String) : KillRequest :=
      if !lists then .send (signal.getD 15) operands
      else if signal.isSome then .fault killUsage
      else .list operands
    let state (name : String) : Except String Nat :=
      match (signal? name).filter (fun signal => 0 < signal || name = "0") with
      | some signal => .ok signal
      | none => .error ("invalid signal number or name: " ++ name)
    match argument.toList with
    | ['-', '-'] => conclude rest
    | ['-', 'l'] => ofOptions true signal rest
    | ['-', 's'] =>
      match rest with
      | [] => .fault "No arg for -s option"
      | name :: rest =>
        match state name with
        | .ok signal => ofOptions lists (some signal) rest
        | .error message => .fault message
    | '-' :: 's' :: cs =>
      match state (String.ofList cs) with
      | .ok signal => ofOptions lists (some signal) rest
      | .error message => .fault message
    | '-' :: c :: _ => .unknownLetter c
    | _ => conclude (argument :: rest)

/-- What the arguments of `kill` ask for. -/
def KillRequest.ofArguments : List String → KillRequest
  | [] => .fault killUsage
  | first :: rest =>
    match first.toList with
    | '-' :: c :: cs =>
      match signal? (String.ofList (c :: cs)) with
      | some signal => .send signal rest
      | none => ofOptions false none (first :: rest)
    | _ => .send 15 (first :: rest)

/-- Sends a signal to the shell. -/
def kill : Program := fun arguments sh =>
  match KillRequest.ofArguments arguments with
  | .unknownLetter c => refusedLetter "kill" c sh
  | .fault message => refused "kill" message sh
  | .send _ [] => refused "kill" killUsage sh
  | .send signal targets => sendTo signal true targets sh
  | .list operands => listSignals operands sh

/-! ### Variables -/

/-- The shell with variables changed by the names and values in arguments, up to one whose name
is none for a variable; that ends the shell. -/
def changeVariables (name : String) (change : String → Option String → Shell → Shell) :
    List String → Shell → Shell
  | [], sh => sh.withStatus 0
  | argument :: rest, sh =>
    let cs := argument.toList
    let variableName := String.ofList (cs.takeWhile (· ≠ '='))
    let value? :=
      match cs.dropWhile (· ≠ '=') with
      | [] => none
      | _ :: value => some (String.ofList value)
    if isVariableName variableName then
      changeVariables name change rest (change variableName value? sh)
    else
      (sh.protest (name ++ ": " ++ variableName ++ ": bad variable name")).exit 2

/-- Sets the variables that arguments give a value to. -/
def setVariables (name : String) : Program := fun arguments sh =>
  match readFlags ['p'] arguments with
  | .error c => (refusedLetter name c sh).exit 2
  | .ok (_, operands) =>
    changeVariables name (fun variableName value? sh =>
      match value? with
      | none => sh
      | some value => sh.assign variableName value) operands sh

/-- Removes variables. -/
def removeVariables : Program := fun arguments sh =>
  match readFlags ['v', 'f'] arguments with
  | .error c => (refusedLetter "unset" c sh).exit 2
  | .ok (flags, operands) =>
    if flags.getLast? = some 'f' then
      sh.withStatus 0
    else
      changeVariables "unset" (fun variableName _ sh =>
        { sh with values := sh.values.filter (·.1 ≠ variableName) }) operands sh

end IncrementalBuild.Shell.Program
