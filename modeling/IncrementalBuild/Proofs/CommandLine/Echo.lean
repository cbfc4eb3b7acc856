import IncrementalBuild.Proofs.CommandLine.Recording

/-!
# Announcing a command

A command is announced before it is given to a shell: a line with its text is written to the
output, and the output is flushed.  `echoOf` is what is written for some commands, and
`Request.ofCommand` what is asked of a host for one of them.

A writer may accept a limited number of bytes.  `Writer.limitedTo` is a writer with such a limit,
after the same has been written to it as to a writer without.
-/

namespace IncrementalBuild

/-! ### Bytes -/

theorem extract_of_size_le {bytes : ByteArray} {limit : Nat} (h : bytes.size ≤ limit) :
  bytes.extract 0 limit = bytes
  := by
  apply ByteArray.ext
  rw [ByteArray.data_extract]
  apply Array.extract_eq_self_of_le h

/-- The first bytes of what is longer. -/
theorem extract_append_of_le {bytes more : ByteArray} {limit : Nat} (h : limit ≤ bytes.size) :
  (bytes ++ more).extract 0 limit = bytes.extract 0 limit
  := by
  have hmore : more.extract (0 - bytes.size) (limit - bytes.size) = .empty := by
    rw [ByteArray.extract_eq_empty_iff]
    omega
  rw [ByteArray.extract_append, hmore, ByteArray.append_empty]

namespace Writer

variable {writer : Writer} {limit : Nat} {text : String}

/-- The writer to which a text has been written that it accepts. -/
def accept (writer : Writer) (text : String) : Writer :=
  { writer with content := writer.content ++ text.toUTF8 }

/-- The writer that accepts a number of bytes in all, after the same has been written. -/
def limitedTo (limit : Nat) (writer : Writer) : Writer :=
  { writer with content := writer.content.extract 0 limit, limit := some limit }

@[simp]
theorem accept_empty (writer : Writer) :
  writer.accept "" = writer
  := by simp [accept]

@[simp]
theorem accept_accept (writer : Writer) (first second : String) :
  (writer.accept first).accept second = writer.accept (first ++ second)
  := by simp [accept, ByteArray.append_assoc]

theorem size_accept (writer : Writer) (text : String) :
  (writer.accept text).content.size = writer.content.size + text.utf8ByteSize
  := ByteArray.size_append

theorem write_of_unlimited (h : writer.limit = none) (text : String) :
  writer.write text = (.ok (), writer.accept text)
  := by simp only [write, writeBytes, h, accept]

@[simp]
theorem flushFails_write (writer : Writer) (text : String) :
  (writer.write text).2.flushFails = writer.flushFails
  := by
  simp only [write, writeBytes]
  split
  · rfl
  · split <;> rfl

/-- A text that does not fit is written as far as it fits. -/
theorem write_limitedTo (writer : Writer) (limit : Nat) (htext : text ≠ "") :
  (writer.limitedTo limit).write text
    = (if writer.content.size + text.utf8ByteSize ≤ limit then .ok () else .error .pipeClosed,
        (writer.accept text).limitedTo limit)
  := by
  have hpos : text.toUTF8.size ≠ 0 := by simpa using htext
  have hsize : text.toUTF8.size = text.utf8ByteSize := rfl
  have hroom : limit - (writer.content.extract 0 limit).size = limit - writer.content.size := by
    rw [ByteArray.size_extract]
    omega
  have hcontent : (writer.content ++ text.toUTF8).extract 0 limit
      = writer.content.extract 0 limit ++ text.toUTF8.extract 0 (limit - writer.content.size) := by
    rw [ByteArray.extract_append, Nat.zero_sub]
  simp only [write, writeBytes, limitedTo, accept, hroom, hcontent]
  split
  · next hfits =>
    rw [if_pos (by omega), extract_of_size_le hfits]
  · next hfull => rw [if_neg (by omega)]

end Writer

/-! ### The lines of commands -/

/-- The lines of commands: what is announced before they are given to the shell. -/
def echoOf (commands : List String) : String :=
  String.join (commands.map (· ++ "\n"))

theorem echoOf_append (first second : List String) :
  echoOf (first ++ second) = echoOf first ++ echoOf second
  := by rw [echoOf, List.map_append, String.join_append, echoOf, echoOf]

@[simp]
theorem echoOf_singleton (command : String) :
  echoOf [command] = command ++ "\n"
  := by simp [echoOf]

/-- What begins with the lines of some commands begins with their first bytes. -/
theorem extract_echoOf_append {limit : Nat} (first later : List String) (rest : String)
    (h : limit ≤ (echoOf first).utf8ByteSize) :
  (echoOf (first ++ later) ++ rest).toUTF8.extract 0 limit
    = (echoOf first).toUTF8.extract 0 limit
  := by
  have hbytes : (echoOf (first ++ later) ++ rest).toUTF8
      = (echoOf first).toUTF8 ++ (echoOf later ++ rest).toUTF8 := by
    rw [echoOf_append, String.append_assoc]
    apply String.toByteArray_append
  rw [hbytes]
  exact extract_append_of_le h

/-- The line of a command is not empty. -/
theorem line_ne_empty (command : String) :
  command ++ "\n" ≠ ""
  := by simp

/-- Fewer commands have shorter lines. -/
theorem utf8ByteSize_echoOf_le {first second : List String} (h : first <+: second) :
  (echoOf first).utf8ByteSize ≤ (echoOf second).utf8ByteSize
  := by
  obtain ⟨rest, rfl⟩ := h
  rw [echoOf_append, String.utf8ByteSize_append]
  omega

/-- The command that a request gives to the shell, behind the directory. -/
def Request.shell? : Request → Option (String × String)
  | shell directory command => some (directory, command)
  | _ => none

/-- The requests of a command that is run. -/
def Request.ofCommand (directory command : String) : List Request :=
  [.write (command ++ "\n"), .flush, .shell directory command]

theorem filterMap_shell?_ofCommand (directory : String) (commands : List String) :
  (commands.flatMap (Request.ofCommand directory)).filterMap Request.shell?
    = commands.map (directory, ·)
  := by
  rw [List.filterMap_flatMap, List.map_eq_flatMap]
  rfl

namespace Host

/-! ### How a command is executed -/

/-- What the end of a shell says of the command it was given. -/
def answerOf (command : String) : Except SystemError ExitStatus → Except CommandError Unit
  | .error e => .error (.spawn command e)
  | .ok (.exited 0) => .ok ()
  | .ok (.exited code) => .error (.failed command (some code))
  | .ok .signalled => .error (.failed command none)

variable {World : Type} {host : Host World} {world written flushed : World} {command : String}
  {e : SystemError}

theorem execute_of_write_error (directory : String)
    (hwrite : host.write world (command ++ "\n") = (.error e, written)) :
  host.execute directory world command = (.error (.echo command e), written)
  := by simp only [execute, hwrite]

theorem execute_of_flush_error (directory : String)
    (hwrite : host.write world (command ++ "\n") = (.ok (), written))
    (hflush : host.flush written = (.error e, flushed)) :
  host.execute directory world command = (.error (.echo command e), flushed)
  := by simp only [execute, hwrite, hflush]

/-- A command that has been announced is given to the shell. -/
theorem execute_of_flush (directory : String)
    (hwrite : host.write world (command ++ "\n") = (.ok (), written))
    (hflush : host.flush written = (.ok (), flushed)) :
  host.execute directory world command
    = (answerOf command (host.shell flushed directory command).1,
        (host.shell flushed directory command).2)
  := by
  simp only [execute, hwrite, hflush]
  rcases host.shell flushed directory command with ⟨result, after⟩
  cases result with
  | error e => rfl
  | ok status =>
    cases status with
    | signalled => rfl
    | exited code => cases code <;> rfl

/-- How a command can be executed: its line is not written, or it is not flushed, or the command is
given to the shell. -/
inductive Executes (host : Host World) (directory : String) (world : World) (command : String) :
    Except CommandError Unit × World → Prop
  | unwritten {e : SystemError} {written : World} :
    host.write world (command ++ "\n") = (.error e, written) →
      Executes host directory world command (.error (.echo command e), written)
  | unflushed {e : SystemError} {written flushed : World} :
    host.write world (command ++ "\n") = (.ok (), written) →
      host.flush written = (.error e, flushed) →
      Executes host directory world command (.error (.echo command e), flushed)
  | given {written flushed : World} :
    host.write world (command ++ "\n") = (.ok (), written) →
      host.flush written = (.ok (), flushed) →
      Executes host directory world command
        (answerOf command (host.shell flushed directory command).1,
          (host.shell flushed directory command).2)

theorem executes_execute (host : Host World) (directory : String) (world : World)
    (command : String) :
  host.Executes directory world command (host.execute directory world command)
  := by
  rcases hwrite : host.write world (command ++ "\n") with ⟨result, written⟩
  cases result with
  | error e =>
    rw [execute_of_write_error directory hwrite]
    exact .unwritten hwrite
  | ok _ =>
    rcases hflush : host.flush written with ⟨result, flushed⟩
    cases result with
    | error e =>
      rw [execute_of_flush_error directory hwrite hflush]
      exact .unflushed hwrite hflush
    | ok _ =>
      rw [execute_of_flush directory hwrite hflush]
      exact .given hwrite hflush

end Host

end IncrementalBuild
