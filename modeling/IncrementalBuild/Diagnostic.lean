/-!
# Diagnostics

A diagnostic is what is told about an error: a message, a code that names the kind of
error, advice, the messages of the errors below it, outermost first, and labels on the
text of the build file, which is then named as the `source`.
-/

namespace IncrementalBuild

/-- A stretch of a text: the offset of its first byte, and its length in bytes. -/
structure Span where
  offset : Nat
  length : Nat
deriving DecidableEq, Repr

/-- A remark on a stretch of the build file. -/
structure Label where
  text : String
  span : Span
deriving DecidableEq, Repr

/-- What is told about an error. -/
structure Diagnostic where
  message : String
  code : Option String
  help : Option String
  causes : List String
  labels : List Label
  source : Option String
deriving DecidableEq, Repr

/-- A diagnostic with a message, a code and advice only. -/
def Diagnostic.plain (message code : String) (help : Option String) : Diagnostic :=
  ⟨message, some code, help, [], [], none⟩

end IncrementalBuild
