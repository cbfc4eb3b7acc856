import IncrementalBuild.Machine.Shell.Program.Basic

/-!
# Removing files

`rm` removes files, and directories with what is in them if it is told so.  It can ask before
it removes something.  It refuses to remove the root directory, and directories that are
named by `.` or `..`.
-/

namespace IncrementalBuild.Shell.Program

/-- When a program asks before it removes something. -/
inductive Asking
  | always
  | once
  | never
deriving DecidableEq, Repr

/-- What `rm` is to do: when it asks, whether it removes directories, with what is in them
or empty ones, and whether it passes over what is not there. -/
structure Removal where
  asks : Asking
  recursive : Bool
  emptyDirectories : Bool
  lenient : Bool

/-- Records the outcome of the removal of a name. -/
def Removal.settle (removal : Removal) (what name : String)
    (change : Except SystemError Unit × FileTree) (work : Work) : Work :=
  match change with
  | (.ok (), tree) => (work.withTree tree).tell ("removed " ++ what ++ shown name)
  | (.error e, _) =>
    if removal.lenient && e.isAbsence then work
    else work.failFor ("cannot remove " ++ shown name) e

/-- What an entry is called. -/
def kindOf (tree : FileTree) : Entry → String
  | .file number =>
    if (tree.content number).bytes.isEmpty then "regular empty file" else "regular file"
  | .directory _ => "directory"
  | .link .. => "symbolic link"
  | .device .. => "character special file"

/-- Asks whether to go on with something, if that is wanted. -/
def Removal.ask (removal : Removal) (question : String) (work : Work) : Bool × Work :=
  if removal.asks = .always then work.ask question else (true, work)

/-- Removes what a path names, down to a number of levels. -/
def Removal.remove (removal : Removal) :
    (levels : Nat) → (isOperand : Bool) → Work → String → Work
  | 0, _, work, _ => work
  | levels + 1, isOperand, work, name =>
    match work.tree.resolve false work.here name with
    | .ok (place, some (.directory _)) =>
      let names := work.tree.namesIn place
      if !removal.recursive && !(removal.emptyDirectories && names.isEmpty) then
        work.failFor ("cannot remove " ++ shown name)
          (if removal.emptyDirectories then .directoryNotEmpty else .isADirectory)
      else if isOperand && isRelative name then
        work.fail ("refusing to remove '.' or '..' directory: skipping " ++ shown name)
      else if place.isEmpty then
        (work.warn ("it is dangerous to operate recursively on " ++ shown name)).fail
          "use --no-preserve-root to override this failsafe"
      else
        let (descends, work) :=
          if names.isEmpty then (true, work)
          else removal.ask ("descend into directory " ++ shown name) work
        if !descends then
          work
        else
          let work := names.foldl (fun work below =>
            removal.remove levels false work (inDirectory name below)) work
          let (goesOn, work) := removal.ask ("remove directory " ++ shown name) work
          if goesOn then
            removal.settle "directory " name (work.tree.removeDirectory work.here name) work
          else
            work
    | found =>
      let absence? : Option SystemError :=
        match found with
        | .error e => some e
        | .ok (_, none) => some .notFound
        | .ok (_, some _) => none
      match found, absence?.filter fun _ => removal.asks = .always with
      | _, some e => work.failFor ("cannot remove " ++ shown name) e
      | .ok (_, some entry), none =>
        let (goesOn, work) :=
          removal.ask ("remove " ++ kindOf work.tree entry ++ " " ++ shown name) work
        if goesOn then removal.settle "" name (work.tree.remove work.here name) work else work
      | _, none => removal.settle "" name (work.tree.remove work.here name) work

/-! ### Options -/

/-- Refuses an argument that names other roots than all of them. -/
def checkRoots : List Given → (written : String) → Option String → Except Fault (Option String)
  | _, _, some word =>
    if word = "all" then .ok (some word)
    else .error (.refusal ("unrecognized --preserve-root argument: " ++ shown word))
  | _, _, none => .ok none

/-- Refuses an option that is cut short. -/
def checkUnabbreviated :
    List Given → (written : String) → Option String → Except Fault (Option String)
  | _, written, argument =>
    if written = "--no-preserve-root" then .ok argument
    else .error (.refusal "you may not abbreviate the --no-preserve-root option")

/-- The options of `rm`. -/
def rmSwitches : List Switch :=
  [.plain 'f' ["force"],
    (Switch.long "interactive" .optional).choosing
      [["never", "no", "none"], ["once"], ["always", "yes"]],
    .long "one-file-system" .none,
    { Switch.long "no-preserve-root" .none with check := checkUnabbreviated },
    { Switch.long "preserve-root" .optional with check := checkRoots },
    .long "-presume-input-tty" .none, .of "r" ['r', 'R'] ["recursive"] .none,
    .plain 'd' ["dir"], .plain 'v' ["verbose"], .plain 'i' [], .plain 'I' []]

/-- When `rm` asks, given its options, and whether it passes over what is not there. -/
def askingOf (call : Invocation) : Asking × Bool :=
  call.given.foldl (fun (asks, isLenient) option =>
    match option with
    | ("f", _) => (.never, true)
    | ("i", _) => (.always, false)
    | ("I", _) => (.once, false)
    | ("interactive", some "never") => (.never, isLenient)
    | ("interactive", some "once") => (.once, false)
    | ("interactive", _) => (.always, false)
    | _ => (asks, isLenient)) (.never, false)

/-- Removes files, and directories with what is in them if it is told so. -/
def rm : Program := withSwitches rmSwitches noWarnings fun call sh =>
  let (asks, isLenient) := askingOf call
  let removal : Removal := ⟨asks, call.has "r", call.has "d", isLenient⟩
  let work := Work.start (call.has "v") sh
  let count := call.operands.length
  if count = 0 then
    if isLenient then sh.withStatus 0 else misused "missing operand" sh
  else
    let (goesOn, work) :=
      if asks = .once && (removal.recursive || 3 < count) then
        work.ask ("remove " ++ Decimal.ofNat count
          ++ (if count = 1 then " argument" else " arguments")
          ++ (if removal.recursive then " recursively" else ""))
      else
        (true, work)
    let work :=
      if goesOn then
        call.operands.foldl (fun work name =>
          removal.remove (work.tree.entries.size + 1) true work name) work
      else
        work
    work.finish

end IncrementalBuild.Shell.Program
