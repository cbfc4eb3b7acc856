import IncrementalBuild.Build.Environment
import IncrementalBuild.System.Path
import IncrementalBuild.System.Writer
import IncrementalBuild.Time.Moment

/-!
# The system a build runs on

A `System` over a type of worlds says what the files of a world are, and what a shell does
to a world when it is given a command in a directory.  A `Host` is a system with an output
that can be written to and flushed; `System.withWriter` adds a writer to a system.

`Host.environment` is the build environment of a directory: names are read from the
directory, and a command is announced on the output, in a line of its own, before the shell
is given it.
-/

namespace IncrementalBuild

/-- How a shell ended: with an exit code, or by a signal. -/
inductive ExitStatus
  | exited (code : Nat)
  | signalled
deriving DecidableEq, Repr

/-- The files of a world and the shell. -/
structure System (World : Type) where
  /-- Whether a path leads to a regular file. -/
  isFile : World → String → Bool
  /-- The text of the file a path leads to. -/
  read : World → String → Except SystemError String
  /-- When the file a path leads to was last modified. -/
  stat : World → String → Except SystemError Stamp
  /-- How a shell that is given a command in a directory ends, and the world it leaves. -/
  shell : World → (directory command : String) → Except SystemError ExitStatus × World

/-- A system with an output. -/
structure Host (World : Type) extends System World where
  write : World → String → Except SystemError Unit × World
  flush : World → Except SystemError Unit × World

namespace System

variable {World : Type}

/-- The system with a writer as its output. -/
def withWriter (system : System World) : Host (World × Writer) where
  isFile state := system.isFile state.1
  read state := system.read state.1
  stat state := system.stat state.1
  shell state directory command :=
    match system.shell state.1 directory command with
    | (result, world) => (result, (world, state.2))
  write state text :=
    match state.2.write text with
    | (result, writer) => (result, (state.1, writer))
  flush state := (state.2.flush, state)

/-- When the file of a name, read from a directory, was last modified, if there is one.  The
time is read by way of the calendar, and a time outside the calendar makes the program panic. -/
def modified (system : System World) (directory : String) (world : World) (name : String) :
    Except (Stop StatError) (Option Stamp) :=
  let path := Path.join directory name
  match system.stat world path with
  | .ok time =>
    match Stamp.ofFileTime? time.secs time.nanos with
    | some stamp => .ok (some stamp)
    | none => .error .panic
  | .error e => if e.isAbsence then .ok none else .error (.failure ⟨path, e⟩)

end System

namespace Host

variable {World : Type}

/-- Announces a command and gives it to the shell. -/
def execute (host : Host World) (directory : String) (world : World) (command : String) :
    Except CommandError Unit × World :=
  match host.write world (command ++ "\n") with
  | (.error e, world) => (.error (.echo command e), world)
  | (.ok (), world) =>
    match host.flush world with
    | (.error e, world) => (.error (.echo command e), world)
    | (.ok (), world) =>
      match host.shell world directory command with
      | (.error e, world) => (.error (.spawn command e), world)
      | (.ok (.exited 0), world) => (.ok (), world)
      | (.ok (.exited code), world) => (.error (.failed command (some code)), world)
      | (.ok .signalled, world) => (.error (.failed command none), world)

/-- The build environment of a directory. -/
def environment (host : Host World) (directory : String) : Environment World where
  modified := host.modified directory
  execute := host.execute directory

end Host

end IncrementalBuild
