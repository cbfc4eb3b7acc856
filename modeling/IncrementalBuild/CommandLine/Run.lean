import IncrementalBuild.BuildFile.Parser
import IncrementalBuild.Build.Run
import IncrementalBuild.CommandLine.Options
import IncrementalBuild.Graph.Dot
import IncrementalBuild.System.Host

/-!
# Running the program

`run` does what the options ask for: it finds, reads and parses the build file, determines
the node to build, and then either writes the graph to the output or builds the node.  A
build that runs no command is reported on the output as up to date.

`RunError` lists what can go wrong, and `program` turns the arguments of the program into
an exit code.
-/

namespace IncrementalBuild

/-- The reason for which a run failed: there is no build file at a path, where the file
name is the default one or not, or it cannot be read, or it is not a build file, or the
build failed, or the output failed at something. -/
inductive RunError
  | buildFileNotFound (path : String) (isDefault : Bool)
  | unreadable (path : String) (cause : SystemError)
  | buildFile (path : String) (e : BuildFile.Error)
  | build (e : BuildError)
  | output (task : String) (cause : SystemError)
deriving DecidableEq, Repr

namespace RunError

/-- The name of a build file that was not found. -/
def missingName (path : String) : String :=
  (Path.fileName? path).getD path

/-- The place where a build file was not found, in words. -/
def missingPlace (path : String) : String :=
  match Path.parent? path with
  | none | some "" => "the current directory"
  | some parent => "directory `" ++ parent ++ "`"

/-- What is told about the error. -/
def diagnostic : RunError → Diagnostic
  | buildFileNotFound path isDefault =>
    .plain (missingName path ++ " not found in " ++ missingPlace path)
      "tsumiki::runner::build_file_not_found"
      (some (if isDefault then
          "create a " ++ missingName path ++ " here, or pass --file to use a different one"
        else
          "check the path given to --file; " ++ path ++ " does not exist"))
  | unreadable path cause => ⟨"failed to read " ++ path, none, none, [cause.message], [], none⟩
  | buildFile path e => e.diagnostic path
  | build e => e.diagnostic
  | output task cause => ⟨"failed to " ++ task, none, none, [cause.message], [], none⟩

end RunError

namespace Options

/-- The directory commands run in and names are read from. -/
def workingDirectory (options : Options) : String :=
  options.directory.getD "."

/-- The path of the build file. -/
def buildFilePath (options : Options) : String :=
  match options.directory with
  | none => options.file
  | some directory => Path.join directory options.file

end Options

namespace System

variable {World : Type}

/-- Reads and parses the build file at a path. -/
def load (system : System World) (world : World) (path : String) : Except RunError Graph :=
  match system.read world path with
  | .error cause => .error (.unreadable path cause)
  | .ok text =>
    match (BuildFile.parseNamed path text).1 with
    | .error e => .error (.buildFile path e)
    | .ok g => .ok g

end System

namespace Host

variable {World : Type}

/-- Finds, reads and parses the build file the options name. -/
def loadBuildFile (host : Host World) (options : Options) (world : World) :
    Except RunError Graph :=
  let path := options.buildFilePath
  if host.isFile world path then
    host.load world path
  else
    .error (.buildFileNotFound path (options.file = defaultBuildFile))

/-- Writes a graph to the output. -/
def writeGraph (host : Host World) (g : Graph) (world : World) :
    Except (Stop RunError) Unit × World :=
  match host.write world g.dot with
  | (.error cause, world) => (.error (.failure (.output "write graph" cause)), world)
  | (.ok (), world) =>
    match host.flush world with
    | (.error cause, world) => (.error (.failure (.output "flush output" cause)), world)
    | (.ok (), world) => (.ok (), world)

/-- Builds a node and reports on the output if it was up to date. -/
def buildNode (host : Host World) (directory : String) (g : Graph) (root : g.Id)
    (world : World) : Except (Stop RunError) Unit × World :=
  let run := build (host.environment directory) g (Marks.clear g) world root
  match run.result with
  | .error e => (.error (e.map .build), run.progress.world)
  | .ok outcome =>
    if outcome.isUpToDate then
      match host.write run.progress.world (outcome.root ++ " is up to date.\n") with
      | (.error cause, world) =>
        (.error (.failure (.output ("report " ++ outcome.root) cause)), world)
      | (.ok (), world) => (.ok (), world)
    else
      (.ok (), run.progress.world)

/-- Does what the options ask for. -/
def run (host : Host World) (options : Options) (world : World) :
    Except (Stop RunError) Unit × World :=
  match host.loadBuildFile options world with
  | .error e => (.error (.failure e), world)
  | .ok g =>
    match g.root options.target with
    | .error e => (.error (.failure (.build e)), world)
    | .ok root =>
      if options.graph then
        host.writeGraph g world
      else
        host.buildNode options.workingDirectory g root world

end Host

/-- The exit code of a program that has stopped early. -/
def Stop.exitCode {ε : Type} : Stop ε → Nat
  | failure _ => 1
  | panic => 101

/-- How the program ended: its exit code, whether it wrote anything to standard error, what
stopped it early, if anything did, and the world it left. -/
structure Ended (World : Type) where
  exitCode : Nat
  complained : Bool
  stop : Option (Stop RunError)
  world : World

/-- Runs the program with the words of its command line, which a parser reads, and the
variables of its surroundings.  It writes to standard error if it is asked to report each
decision and if it stops early. -/
def program {World : Type} (parser : CommandLine.ArgumentParser) (host : Host World)
    (surroundings : String → Option String) (words : List String) (world : World) :
    Ended World :=
  match Options.parse parser surroundings words with
  | .error .displayVersion => ⟨0, false, none, (host.write world versionText).2⟩
  | .error .displayHelp => ⟨0, false, none, world⟩
  | .error e => ⟨e.exitCode, true, none, world⟩
  | .ok options =>
    match host.run options world with
    | (.ok (), world) => ⟨0, options.verbose, none, world⟩
    | (.error stop, world) => ⟨stop.exitCode, true, some stop, world⟩

end IncrementalBuild
