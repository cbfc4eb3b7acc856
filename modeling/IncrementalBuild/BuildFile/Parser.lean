import IncrementalBuild.BuildFile.Error
import IncrementalBuild.Event
import IncrementalBuild.Graph.Basic
import IncrementalBuild.Text.Line

/-!
# Reading a build file

`parse` reads a text line by line into a graph.  A rule declares its target and gives it
dependencies; a command is added to the target declared last; a blank line says nothing.
The first line that breaks a condition ends the reading.  A name may be a dependency
before it is declared, and one that is never declared stays an undeclared node.

`parseNamed` also reports the graph it has read from the text of a file.
-/

namespace IncrementalBuild.BuildFile

open Text

/-- What has been read: the graph so far, the target declared last, and where each target
was declared, the latest first. -/
structure Reading where
  graph : Graph
  current : Option Nat
  declaredAt : List (Nat × Span)

/-- Nothing has been read. -/
def Reading.start : Reading :=
  ⟨∅, none, []⟩

/-- The stretch of the text that a line has between two of its offsets. -/
def spanAt (line : Line) (offset length : Nat) : Span :=
  ⟨line.offset + offset, length⟩

namespace Reading

/-- Adds a command to the target declared last. -/
def addCommand (reading : Reading) (line : Line) (text : List Char) : Except Error Reading :=
  match reading.current with
  | none =>
    .error (.malformed .commandBeforeTarget line.number (spanAt line 0 (byteLength line.content)))
  | some target =>
    .ok { reading with graph := reading.graph.addCommand target (String.ofList text) }

/-- Adds dependencies to a target from left to right. -/
def addDependencies (line : Line) (target : Nat) : Graph → List Word → Except Error Graph
  | graph, [] => .ok graph
  | graph, word :: rest =>
    match graph.depend target word.text with
    | (graph, .ok _) => addDependencies line target graph rest
    | (_, .error e) =>
      .error (.duplicateDependency e.target e.dependency line.number
        (spanAt line word.offset word.length))

/-- Declares the target of a rule and adds its dependencies. -/
def addRule (reading : Reading) (line : Line) (rule : Rule) : Except Error Reading :=
  let span := spanAt line rule.name.offset rule.name.length
  match reading with
  | ⟨graph, _, declaredAt⟩ =>
    match graph.declare rule.name.text with
    | (graph, .error e) =>
      let first := ((graph.find? e.name).bind fun id => declaredAt.lookup id.val).getD span
      .error (.duplicateTarget e.name line.number span first)
    | (graph, .ok id) =>
      match addDependencies line id graph rule.dependencies with
      | .ok graph => .ok ⟨graph, some id, (id, span) :: declaredAt⟩
      | .error e => .error e

/-- Reads one line. -/
def addLine (reading : Reading) (line : Line) : Except Error Reading :=
  match Statement.ofContent line.content with
  | .blank => .ok reading
  | .command text => reading.addCommand line text
  | .rule =>
    match Rule.parse line.content with
    | .ok rule => reading.addRule line rule
    | .error flaw =>
      .error (.malformed flaw.kind line.number (spanAt line flaw.offset flaw.length))

/-- Reads lines from the first to the last. -/
def addLines : Reading → List Line → Except Error Reading
  | reading, [] => .ok reading
  | reading, line :: rest =>
    match reading.addLine line with
    | .ok reading => addLines reading rest
    | .error e => .error e

end Reading

/-- The graph that a text describes. -/
def parse (text : String) : Except Error Graph :=
  match Reading.start.addLines (lines text.toList) with
  | .error e => .error e
  | .ok reading =>
    match reading.graph.first with
    | none => .error .noTarget
    | some _ => .ok reading.graph

/-- The graph that the text of a build file describes, and the report that it has been read. -/
def parseNamed (file text : String) : Except Error Graph × List Event :=
  match parse text with
  | .error e => (.error e, [])
  | .ok g => (.ok g, [.parsed file g.size g.declaredCount])

@[simp]
theorem parseNamed_fst (file text : String) :
  (parseNamed file text).1 = parse text
  := by
  unfold parseNamed
  cases parse text <;> rfl

end IncrementalBuild.BuildFile
