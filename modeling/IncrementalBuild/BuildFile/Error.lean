import IncrementalBuild.BuildFile.Rule
import IncrementalBuild.Diagnostic
import IncrementalBuild.Text.Decimal

/-!
# Errors in a build file

The reasons for which a text is not a build file: it declares no target, a line breaks
the grammar, a target is declared twice, or a rule repeats a dependency.  `diagnostic`
says which lines and stretches of the text are to blame.
-/

namespace IncrementalBuild.BuildFile

/-- The reason for which a text is not a build file.  Lines are counted from one, and
stretches are stretches of the whole text. -/
inductive Error
  | noTarget
  | malformed (kind : Malformation) (line : Nat) (span : Span)
  | duplicateTarget (name : String) (line : Nat) (span first : Span)
  | duplicateDependency (target dependency : String) (line : Nat) (span : Span)
deriving DecidableEq, Repr

namespace Error

/-- The number of the line to blame. -/
def line? : Error → Option Nat
  | .noTarget => none
  | .malformed _ line _ | .duplicateTarget _ line _ _ | .duplicateDependency _ _ line _ => some line

/-- What is wrong in the file of the given name, in words. -/
def message (file : String) : Error → String
  | .noTarget => file ++ " declares no targets"
  | .malformed kind line _ => "line " ++ Decimal.ofNat line ++ ": " ++ kind.message
  | .duplicateTarget name line _ _ =>
    "line " ++ Decimal.ofNat line ++ ": `" ++ name ++ "` is already a target"
  | .duplicateDependency target dependency line _ =>
    "line " ++ Decimal.ofNat line ++ ": `" ++ target ++ "` already has dependency `"
      ++ dependency ++ "`"

/-- The code of the kind of error. -/
def code : Error → String
  | .noTarget => "tsumiki::buildfile::empty"
  | .malformed .. => "tsumiki::buildfile::malformed"
  | .duplicateTarget .. => "tsumiki::buildfile::duplicate_target"
  | .duplicateDependency .. => "tsumiki::buildfile::duplicate_dependency"

/-- Advice on what to write instead. -/
def help : Error → Option String
  | .noTarget => some "add a target line such as `all: main.o`"
  | .malformed kind _ _ => kind.help
  | .duplicateTarget .. | .duplicateDependency .. => none

/-- The stretches to blame; the main one comes first. -/
def labels : Error → List Label
  | .noTarget => []
  | .malformed _ _ span => [⟨"here", span⟩]
  | .duplicateTarget _ _ span first =>
    [⟨"declared again here", span⟩, ⟨"first declared here", first⟩]
  | .duplicateDependency _ _ _ span => [⟨"repeated dependency", span⟩]

/-- What is told about an error in the file of the given name; the file is named as the
source unless the error is in no line of it. -/
def diagnostic (file : String) (e : Error) : Diagnostic where
  message := e.message file
  code := some e.code
  help := e.help
  causes := []
  labels := e.labels
  source := e.line?.map fun _ => file

end Error

end IncrementalBuild.BuildFile
