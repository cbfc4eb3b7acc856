import IncrementalBuild.Machine.Shell.Program

/-!
# Running command lines

`Command.run` runs a command in a shell: words are expanded, redirections opened, and the
program of the first word is run.  Parentheses, each side of a pipe, and what is sent into
the background run in a shell of their own, which is the same process as the shell around it
if nothing comes after it.  A redirection that cannot be opened, and a line that cannot be
parsed, give the exit code 2, and a program that is not there 127.
-/

namespace IncrementalBuild

namespace Shell

/-! ### Redirections -/

/-- What a redirection does, once its word is expanded. -/
inductive Opening
  | path (direction : Direction) (name : String)
  | duplicate (descriptor : Nat)
  | closing
  | document (text : String)
deriving DecidableEq, Repr

/-- What a redirection does; there is none if it names no descriptor where it has to. -/
def Redirection.opening? (redirection : Redirection) (sh : Shell) : Option Opening :=
  let text := sh.expandText redirection.target
  match redirection.direction with
  | .document => some (.document text)
  | .joined =>
    match text.toList with
    | ['-'] => some .closing
    | [c] => if Decimal.isDigit c then some (.duplicate (Decimal.digitValue c)) else none
    | _ => none
  | direction => some (.path direction text)

/-- The reason for which a file cannot be opened; where there is none, `absent` says so. -/
def openingReason (absent : String) (e : SystemError) : String :=
  if e.isAbsence then absent else e.reason

/-- Opens a redirection of a stream; on an error, what is wrong.  If the stream is to come
back later, it has been put `aside` before another one takes its place. -/
def perform (aside : Bool) (stream : Nat) (opening : Opening) (sh : Shell) :
    Except String Unit × Shell :=
  match opening with
  | .path direction name =>
    match sh.openPath direction name with
    | (.ok number, sh) => (.ok (), sh.redirect stream (some number))
    | (.error e, sh) =>
      let complaint :=
        if direction = .outOf then
          "cannot open " ++ name ++ ": " ++ openingReason "No such file" e
        else
          "cannot create " ++ name ++ ": " ++ openingReason "Directory nonexistent" e
      (.error complaint, sh)
  | .duplicate descriptor =>
    match sh.fileNumber? descriptor with
    | some number => (.ok (), sh.redirect stream (some number))
    | none =>
      if descriptor = stream then
        (.ok (), sh)
      else
        (.error (Decimal.ofNat descriptor ++ ": " ++ SystemError.badDescriptor.reason),
          if aside then sh.redirect stream none else sh)
  | .closing => (.ok (), sh.redirect stream none)
  | .document text => (.ok (), sh.openAs stream ⟨.buffer text.toUTF8, 0, true, false, false⟩)

/-- Opens redirections from the first to the last, up to one that fails, which is told of. -/
def performAll (aside : Bool) : List (Nat × Opening) → Shell → Bool × Shell
  | [], sh => (true, sh)
  | (stream, opening) :: rest, sh =>
    match sh.perform aside stream opening with
    | (.ok (), sh) => performAll aside rest sh
    | (.error fault, sh) => (false, sh.protest fault)

/-- The shell ended by an error in a line that could be parsed. -/
def abort (sh : Shell) (fault : String) : Shell :=
  (sh.protest fault).exit 2

/-- What redirections do, each to its stream; else what is wrong with a word. -/
def openings (redirections : List Redirection) (sh : Shell) :
    Except String (List (Nat × Opening)) :=
  if redirections.any fun redirection => redirection.target.any Part.isMisnamed then
    .error "Bad substitution"
  else
    match redirections.mapM fun redirection =>
      (redirection.opening? sh).map fun opening => (redirection.stream, opening) with
    | none => .error "Syntax error: Bad fd number"
    | some openings => .ok openings

/-- Opens redirections; the shell ends if a word cannot be expanded. -/
def openAll (aside : Bool) (redirections : List Redirection) (sh : Shell) : Bool × Shell :=
  match sh.openings redirections with
  | .error fault => (false, sh.abort fault)
  | .ok openings => performAll aside openings sh

/-- The shell with the descriptors of another one. -/
def withDescriptorsOf (sh other : Shell) : Shell :=
  { sh with descriptors := other.descriptors }

/-! ### Simple commands -/

/-- The shell with variables set, up to one whose value cannot be expanded. -/
def assignAll : List (String × Word) → Shell → Shell
  | [], sh => sh
  | (name, word) :: rest, sh =>
    if word.any Part.isMisnamed then sh.abort "Bad substitution"
    else assignAll rest (sh.assign name (sh.expandText word))

/-- The shell with variables set back to what they were in another one. -/
def unassign (sh : Shell) (names : List String) (before : Shell) : Shell :=
  { sh with
    values := before.values.filter (fun value => names.contains value.1)
      ++ sh.values.filter fun value => !names.contains value.1 }

/-- Starts the program of a file.  It fails if it could not write an error message.  A shell
whose outermost shell has been ended does not get as far, unless its output is waited
for. -/
def startProgram (program : Program) (name : String) (arguments : List String) (sh : Shell) :
    Shell :=
  if sh.killed && !sh.machine.shared then
    { sh with ended := some .signalled }
  else
    let sh := program arguments { sh with called := name, unheard := false }
    if sh.unheard then sh.withStatus 1 else sh

/-- Runs a program in place of the shell. -/
def replace (arguments : List String) (sh : Shell) : Shell :=
  match arguments with
  | [] => sh.withStatus 0
  | name :: arguments =>
    match Program.lookUp sh name with
    | .ok program =>
      let sh := sh.startProgram program name arguments
      if sh.ended.isSome then sh else sh.exit sh.status
    | .error e =>
      (sh.protest ("exec: " ++ name ++ ": " ++ Program.absence e)).exit
        (if e = .permissionDenied then 126 else 127)

/-- Runs the program of a name. -/
def runProgram (name : String) (arguments : List String) (sh : Shell) : Shell :=
  match Program.own? name with
  | some program => program arguments sh
  | none =>
    match Program.lookUp sh name with
    | .ok program => sh.startProgram program name arguments
    | .error e =>
      (sh.protest (name ++ ": " ++ Program.absence e)).withStatus
        (if e = .permissionDenied && name.toList.contains '/' then 126 else 127)

/-- Runs a program with its arguments.  Assignments and redirections before it hold only
while it runs, unless there is no program, or `exec` makes the redirections stay. -/
def runSimple (assignments : List (String × Word)) (words : List Word)
    (redirections : List Redirection) (sh : Shell) : Shell :=
  if words.any fun word => word.any Part.isMisnamed then
    sh.abort "Bad substitution"
  else
    let fields := words.flatMap sh.expand
    let special := fields.head?.any Program.isSpecial
    match sh.openAll true redirections with
    | (false, opened) =>
      let opened := if special then opened.exit 2 else opened.withStatus 2
      opened.withDescriptorsOf sh
    | (true, opened) =>
      let assigned := opened.assignAll assignments
      if assigned.ended.isSome then
        assigned
      else
        match fields with
        | [] => (assigned.withStatus 0).withDescriptorsOf sh
        | "exec" :: arguments => assigned.replace arguments
        | name :: arguments =>
          let after := (assigned.runProgram name arguments).withDescriptorsOf sh
          if special then after else after.unassign (assignments.map (·.1)) sh

/-! ### Commands -/

/-- Runs a command.  It is a `tail` if the shell has nothing to do after it. -/
def Command.run (tail : Bool) : Command → Shell → Shell
  | .simple line assignments words redirections, sh =>
    runSimple assignments words redirections { sh with line := line }
  | .grouped line true body redirections, sh =>
    let sh := { sh with line := line }
    match sh.openings redirections with
    | .error fault => sh.abort fault
    | .ok openings =>
      let inner := if tail then sh else { sh with outermost := false }
      let inner :=
        match performAll false openings inner with
        | (false, inner) => inner.exit 2
        | (true, inner) => body.run true inner
      if tail then inner else inner.leave sh
  | .grouped line false body redirections, sh =>
    match { sh with line := line : Shell }.openAll true redirections with
    | (false, after) => (after.withStatus 2).withDescriptorsOf sh
    | (true, opened) => (body.run false opened).withDescriptorsOf sh
  | .piped left right, sh =>
    let (pipe, sh) := sh.addFile ⟨.buffer .empty, 0, false, true, true⟩
    let writer := left.run true ({ sh with outermost := false }.redirect 1 (some pipe))
    let between := writer.updateFile pipe fun file =>
      { file with readable := true, writable := false }
    let between := { between.leave sh with status := sh.status, ended := none, outermost := false }
    (right.run true (between.redirect 0 (some pipe))).leave sh
  | .negated body, sh =>
    let sh := body.run false sh
    if sh.ended.isSome then sh else sh.withStatus (if sh.status = 0 then 1 else 0)
  | .both left right, sh =>
    let sh := left.run false sh
    if sh.ended.isNone && sh.status = 0 then right.run tail sh else sh
  | .either left right, sh =>
    let sh := left.run false sh
    if sh.ended.isNone && sh.status ≠ 0 then right.run tail sh else sh
  | .sequence left right, sh =>
    let sh := left.run false sh
    if sh.ended.isNone then right.run tail sh else sh
  | .background body, sh =>
    let inner := { sh with outermost := false }.openAs 0 ⟨.device .null, 0, true, false, false⟩
    ((body.run true inner).leave sh).withStatus 0

/-- Runs commands one after the other, until the shell ends.  With each it is said whether it
is a tail. -/
def runAll (commands : List (Command × Bool)) (sh : Shell) : Shell :=
  commands.foldl (fun sh (command, tail) =>
    if sh.ended.isNone then command.run tail sh else sh) sh

/-- Runs a command line. -/
def runLine (line : String) (sh : Shell) : Shell :=
  let (commands, complete) := Command.ofLine line
  let sh := sh.runAll commands
  if complete || sh.ended.isSome then sh else sh.abort "Syntax error"

/-- The shell when it has taken the command line for an option: a wrong one, or one after
which the command line is missing. -/
def misread (sh : Shell) : Shell :=
  (sh.complain "sh: 0: Illegal option").exit 2

end Shell

end IncrementalBuild
