import IncrementalBuild.Diagnostic
import IncrementalBuild.Event
import IncrementalBuild.Stop
import IncrementalBuild.System.Error
import IncrementalBuild.Text.Decimal
import IncrementalBuild.Time.Stamp

/-!
# What a build deals with

A build looks at files and runs commands.  An `Environment` over a type of worlds says
when the file of a name was last modified in a world, if there is such a file, and what
running a command does to the world.  Looking at a file does not change the world; it can
stop the build, with an error or in a panic.

`BuildError` lists the errors a build can fail with.
-/

namespace IncrementalBuild

/-- The time of a file could not be found out. -/
structure StatError where
  path : String
  cause : SystemError
deriving DecidableEq, Repr

/-- A command did not succeed: it failed, with an exit code unless a signal ended it, or it
could not be started, or it could not be announced before it was started. -/
inductive CommandError
  | failed (command : String) (code : Option Int)
  | spawn (command : String) (cause : SystemError)
  | echo (command : String) (cause : SystemError)
deriving DecidableEq, Repr

/-- The files and commands of a build. -/
structure Environment (World : Type) where
  /-- When the file of a name was last modified, if there is one. -/
  modified : World → String → Except (Stop StatError) (Option Stamp)
  /-- Whether a command succeeds, and the world it leaves. -/
  execute : World → String → Except CommandError Unit × World

/-- The reason for which a build failed. -/
inductive BuildError
  | unknownTarget (name : String)
  | noTargets
  | missingPrerequisite (name neededBy : String)
  | cyclicDependency (cycle : List String)
  | stat (e : StatError)
  | command (e : CommandError)
deriving DecidableEq, Repr

/-! ### Wording -/

namespace CommandError

/-- What is wrong, in words. -/
def message : CommandError → String
  | failed command (some code) =>
    "the command `" ++ command ++ "` failed with exit code " ++ Decimal.ofInt code
  | failed command none => "the command `" ++ command ++ "` failed (terminated by signal)"
  | spawn command _ => "failed to start the shell for `" ++ command ++ "`"
  | echo command _ => "failed to echo `" ++ command ++ "`"

/-- The code of the kind of error. -/
def code : CommandError → String
  | failed .. => "tsumiki::executor::command_failed"
  | spawn .. => "tsumiki::executor::spawn"
  | echo .. => "tsumiki::executor::echo"

/-- The exit code of a command that failed with one. -/
def exitCode? : CommandError → Option Int
  | failed _ code => code
  | spawn .. | echo .. => none

/-- What is told about the error. -/
def diagnostic (e : CommandError) : Diagnostic where
  message := e.message
  code := some e.code
  help := none
  causes := match e with
    | failed .. => []
    | spawn _ cause | echo _ cause => [cause.message]
  labels := []
  source := none

end CommandError

namespace BuildError

/-- What is told about the error. -/
def diagnostic : BuildError → Diagnostic
  | unknownTarget name =>
    .plain ("make target `" ++ name ++ "` not found") "tsumiki::engine::unknown_target"
      (some "declare it on the left of a `:` in the build file")
  | noTargets => .plain "build file declares no targets" "tsumiki::engine::no_targets" none
  | missingPrerequisite name neededBy =>
    .plain
      ("`" ++ name ++ "` is not a target and does not exist (needed by `" ++ neededBy ++ "`)")
      "tsumiki::engine::missing_prerequisite"
      (some "create the file or declare a target that builds it")
  | cyclicDependency cycle =>
    .plain ("dependency cycle detected: " ++ " -> ".intercalate cycle)
      "tsumiki::engine::cyclic_dependency" none
  | stat e =>
    { Diagnostic.plain ("failed to read metadata for " ++ e.path) "tsumiki::engine::stat" none with
      causes := [e.cause.message] }
  | command e => e.diagnostic

end BuildError

end IncrementalBuild
