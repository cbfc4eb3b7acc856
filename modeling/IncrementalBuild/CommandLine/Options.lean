import IncrementalBuild.CommandLine.Argument

/-!
# The options of the command line

`Options.declared` lists the arguments that the program declares, with their letters, long names
and defaults, and the variables of the surroundings that stand in for them.  `Options.parse` has a
parser find them, and takes the options from what has been found.
-/

namespace IncrementalBuild

/-- The name of the build file that is read unless another is given. -/
def defaultBuildFile : String := "Tsumikifile"

/-- What the program is asked to do: which build file to read, in which directory, whether
to report each decision, whether to draw the graph instead of building, and what to
build. -/
structure Options where
  file : String
  directory : Option String
  verbose : Bool
  graph : Bool
  target : Option String
deriving DecidableEq, Repr

/-- What the program prints when it is asked for its version. -/
def versionText : String := "tsumiki 0.1.0\n"

namespace Options

open CommandLine

/-- The options of an empty command line. -/
def default : Options :=
  ⟨defaultBuildFile, none, false, false, none⟩

/-- The arguments of the program. -/
def declared : List Argument :=
  [{ id := "file", short := some 'f', long := some "file", environment := some "TSUMIKI_FILE",
      default := some defaultBuildFile },
    { id := "directory", short := some 'C', long := some "directory",
      environment := some "TSUMIKI_DIRECTORY" },
    { id := "verbose", short := some 'v', long := some "verbose", isSwitch := true },
    { id := "graph", long := some "graph", isSwitch := true },
    { id := "target" }]

/-- The options that have been found.  There is no build without a build file. -/
def ofMatches (found : Matches) : Except UsageError Options :=
  match found.text? "file" with
  | none => .error .missingArgument
  | some file =>
    .ok
      { file
        directory := found.text? "directory"
        verbose := found.isOn "verbose"
        graph := found.isOn "graph"
        target := found.text? "target" }

/-- The options that a parser finds in the words of a command line and the variables of the
surroundings. -/
def parse (parser : ArgumentParser) (surroundings : String → Option String)
    (words : List String) : Except UsageError Options :=
  match parser surroundings words with
  | .error e => .error e
  | .ok found => ofMatches found

end Options

end IncrementalBuild
