import IncrementalBuild.Machine.Shell.Evaluation

/-!
# A machine to rehearse builds on

`Machine.host` is one system among those that a build can run on: a file tree in memory, whose
clock goes on by a second with every command line, and a shell with the programs that commands
call most.  Nothing that is known of builds rests on it; what is said of a build is said for
every host.  The modules below this one serve the machine alone: the changes to its files
(`Machine.FileTree`), the shell and its programs (`Machine.Shell`), and the dates and the
binary numbers the programs read and print (`Machine.Phrase`, `Machine.BinaryNumber`).

`Machine.shell` runs a command line on a machine in a directory.
-/

namespace IncrementalBuild

namespace Machine

/-- A machine whose clock has gone on by a second. -/
def tick (machine : Machine) : Machine :=
  let now := machine.tree.now
  let later := (Stamp.ofParts? (now.secs + 1) now.nanos).getD now
  { machine with tree := { machine.tree with now := later } }

/-- The number of bytes of the longest command line. -/
def maxCommandLength : Nat := 131071

/-- A command line that the shell takes for an option. -/
def isOption (command : String) : Bool :=
  command.startsWith "-" || command.startsWith "+"

/-- Runs a command line in a directory. -/
def shell (machine : Machine) (directory command : String) :
    Except SystemError ExitStatus × Machine :=
  if command.toList.contains '\x00' || directory.toList.contains '\x00' then
    (.error .nulInCommand, machine)
  else
    match machine.tree.directoryAt machine.here directory with
    | .error e => (.error e, machine)
    | .ok place =>
      if maxCommandLength < command.utf8ByteSize then
        (.error .argumentsTooLong, machine)
      else
        let sh := Shell.start machine.tick place
        let sh :=
          if isOption command then sh.misread else sh.runLine command
        (.ok sh.ending, sh.machine)

/-- The text of the file a path leads to. -/
def read (machine : Machine) (path : String) : Except SystemError String :=
  match machine.tree.read machine.here path with
  | .error e => .error e
  | .ok content =>
    match String.fromUTF8? content with
    | none => .error .invalidText
    | some text => .ok text

/-- The machine as a host. -/
def host : Host Machine where
  isFile machine := machine.tree.isFile machine.here
  read := read
  stat machine := machine.tree.stat machine.here
  shell := shell
  write machine text :=
    match machine.out.write text with
    | (result, out) => (result, { machine with out := out })
  flush machine := (machine.out.flush, machine)

/-- The entries that every machine has, apart from the root directory. -/
def entries (now : Stamp) : List (Place × Entry) :=
  let streams := (List.range 10).map fun descriptor =>
    ([Decimal.ofNat descriptor, "fd", "self", "proc"],
      Entry.device (.stream descriptor) now)
  let programs := Shell.Program.files.map fun (name, _) =>
    ([name, "bin", "usr"], Entry.device (.program name) now)
  [["dev"], ["proc"], ["self", "proc"], ["fd", "self", "proc"], ["root"], ["tmp"],
      ["work", "tmp"], ["usr"], ["bin", "usr"]].map (·, .directory now)
    ++ streams ++ programs
    ++ [(["null", "dev"], .device .null now), (["full", "dev"], .device .full now),
      (["fd", "dev"], .link "/proc/self/fd" now), (["stdin", "dev"], .link "/proc/self/fd/0" now),
      (["stdout", "dev"], .link "/proc/self/fd/1" now),
      (["stderr", "dev"], .link "/proc/self/fd/2" now), (["bin"], .link "usr/bin" now)]

/-- A machine with the entries that every machine has, and an empty current directory; the
output of its commands goes to the output of the program if it is `shared`. -/
def fresh (out : Writer) (shared : Bool) : Machine :=
  let now := Stamp.new 1780000000 0
  let tree := (entries now).foldl (fun tree (place, entry) => tree.put place entry)
    (FileTree.root now)
  ⟨tree, ["work", "tmp"], out, shared, false⟩

end Machine

end IncrementalBuild
