/-!
# Reports

An `Event` is reported while a build file is read and while a build goes on.  Those of level
`debug` explain what is done, and those of level `info` say how a build ended.
-/

namespace IncrementalBuild

/-- How much a report matters. -/
inductive Level
  | debug
  | info
deriving DecidableEq, Repr

/-- A report: a build file has been read, a prerequisite is missing, a target has to be
built because it is absent or because of one of its dependencies, and the end of a build. -/
inductive Event
  | parsed (file : String) (nodes targets : Nat)
  | unmet (missing dependent : String)
  | absent (name : String)
  | outdated (name dependency : String)
  | upToDate (root : String)
  | finished (root : String) (commands : Nat)
deriving DecidableEq, Repr

namespace Event

/-- How much the report matters. -/
def level : Event → Level
  | parsed .. | unmet .. | absent .. | outdated .. => .debug
  | upToDate .. | finished .. => .info

/-- The report in words, without the names it is about. -/
def message : Event → String
  | parsed .. => "parsed build file"
  | unmet .. => "prerequisite is neither a target nor a file"
  | absent .. => "target missing on disk"
  | outdated .. => "dependency is newer or missing"
  | upToDate .. => "up to date"
  | finished .. => "build finished"

end Event

end IncrementalBuild
