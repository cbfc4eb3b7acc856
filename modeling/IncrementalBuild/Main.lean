import IncrementalBuild.CommandLine.Reading
import IncrementalBuild.CommandLine.Run
import IncrementalBuild.Machine

/-!
# The command line

The program rehearses a build.  It copies the build file, and every file the build file
names, into the memory of a machine, and does there what the options ask for; the files on
disk stay as they are.  The copies have the time of the machine's clock, so that a name is
built if there is no file of the name, or if something it depends on is built.
-/

namespace IncrementalBuild

/-- The machine with a copy of the file at a path, if the file can be read. -/
def Machine.copyFile (machine : Machine) (path : String) : IO Machine := do
  try
    let content ← IO.FS.readBinFile path
    let directories := (Path.parent? path).getD ""
    let tree := (machine.tree.makeDirectories machine.here directories).2
    return { machine with tree := (tree.write machine.here path content).2 }
  catch _ =>
    return machine

/-- The machine with copies of the build file and of the files it names. -/
def Machine.copyBuild (machine : Machine) (options : Options) : IO Machine := do
  let machine ← machine.copyFile options.buildFilePath
  match Machine.host.loadBuildFile options machine with
  | .error _ => return machine
  | .ok g =>
    g.nodes.foldlM (fun machine node =>
      machine.copyFile (Path.join options.workingDirectory node.name)) machine

/-- What is told about arguments that ask for nothing the program does. -/
def usageText : String :=
  "usage: tsumiki [-v] [-f FILE] [-C DIR] [--graph] [TARGET]\n"

/-- What is told about a panic. -/
def panicText : String :=
  "the program panicked\n"

/-- The lines that tell of an error. -/
def Diagnostic.report (d : Diagnostic) : String :=
  String.join ((d.message :: d.causes ++ d.help.toList).map (· ++ "\n"))

end IncrementalBuild

open IncrementalBuild CommandLine in
/-- Rehearses the build that the arguments ask for. -/
def main (arguments : List String) : IO UInt32 := do
  let names := Options.declared.filterMap (·.environment)
  let values ← names.filterMapM fun name => do return (← IO.getEnv name).map (name, ·)
  let surroundings (name : String) := values.lookup name
  let parser := Reading.parser Options.declared
  let fresh := Machine.fresh .unlimited true
  let machine ←
    match Options.parse parser surroundings arguments with
    | .error _ => pure fresh
    | .ok options => fresh.copyBuild options
  let ended := program parser Machine.host surroundings arguments machine
  let output ← IO.getStdout
  output.write ended.world.out.content
  output.flush
  match ended.stop with
  | some (.failure e) => IO.eprint e.diagnostic.report
  | some .panic => IO.eprint panicText
  | none => if ended.exitCode ≠ 0 then IO.eprint usageText
  return UInt32.ofNat ended.exitCode
