import IncrementalBuild.System.Error

/-!
# Writers

A writer takes up the output of the program.  It may accept only a limited number of bytes
in all; a text that does not fit is accepted as far as it fits, and the rest is an error.
It may also refuse to be flushed.
-/

namespace IncrementalBuild

/-- What has been written, how many bytes are accepted in all, and whether flushing
fails. -/
structure Writer where
  content : ByteArray
  limit : Option Nat
  flushFails : Bool

namespace Writer

/-- A writer that accepts everything, to which nothing has been written. -/
def unlimited : Writer :=
  ⟨.empty, none, false⟩

/-- Writes bytes as far as they are accepted. -/
def writeBytes (writer : Writer) (bytes : ByteArray) : Except SystemError Unit × Writer :=
  match writer.limit with
  | none => (.ok (), { writer with content := writer.content ++ bytes })
  | some limit =>
    let room := limit - writer.content.size
    if bytes.size ≤ room then
      (.ok (), { writer with content := writer.content ++ bytes })
    else
      (.error .pipeClosed, { writer with content := writer.content ++ bytes.extract 0 room })

/-- Writes a text as far as it is accepted. -/
def write (writer : Writer) (text : String) : Except SystemError Unit × Writer :=
  writer.writeBytes text.toUTF8

/-- Flushes the writer. -/
def flush (writer : Writer) : Except SystemError Unit :=
  if writer.flushFails then .error .flushRefused else .ok ()

end Writer

end IncrementalBuild
