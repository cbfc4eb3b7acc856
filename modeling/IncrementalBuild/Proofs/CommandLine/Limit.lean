import IncrementalBuild.Proofs.CommandLine.EarlyError
import IncrementalBuild.Proofs.CommandLine.Echo
import IncrementalBuild.Proofs.Walk.Stopping

/-!
# Builds with a limited output

A build whose writer accepts a limited number of bytes is like one without a limit in which the
commands are stopped whose lines do not fit, `Host.overflow`.  So it ends in the same way as the
build without a limit if all lines fit, and otherwise at the first command whose line does not.

Where the output cannot be flushed, no shell is given a command.
-/

namespace IncrementalBuild

variable {World : Type} {g : Graph}

namespace Host

/-! ### Builds with and without a limit -/

/-- The state of a system with a writer and a record of the requests. -/
abbrev Recorded (World : Type) : Type :=
  (World × Writer) × List Request

/-- The host of a system with a writer, with a record. -/
abbrev recorded (system : System World) : Host (Recorded World) :=
  system.withWriter.recording

/-- The writer of the state accepts everything. -/
structure Accepts (state : Recorded World) : Prop where
  limit : state.1.2.limit = none
  flush : state.1.2.flushFails = false

/-- The state in which a text has been written. -/
def written (state : Recorded World) (text : String) : Recorded World :=
  ((state.1.1, state.1.2.accept text), state.2 ++ [.write text])

/-- The state with a writer that accepts a number of bytes in all. -/
def limitedTo (limit : Nat) (state : Recorded World) : Recorded World :=
  ((state.1.1, state.1.2.limitedTo limit), state.2)

/-- A command is stopped if its line does not fit: the line is written, but neither is the output
flushed nor is the shell given the command. -/
def overflow (limit : Nat) (state : Recorded World) (command : String) :
    Option (CommandError × Recorded World) :=
  if state.1.2.content.size + (command ++ "\n").utf8ByteSize ≤ limit then
    none
  else
    some (.echo command .pipeClosed, written state (command ++ "\n"))

/-- The state in which the shell has been given a command whose line has been written. -/
def executed (system : System World) (directory : String) (state : Recorded World)
    (command : String) : Recorded World :=
  (((system.shell state.1.1 directory command).2, state.1.2.accept (command ++ "\n")),
    state.2 ++ Request.ofCommand directory command)

variable {system : System World} {directory : String} {state : Recorded World} {limit : Nat}

theorem write_of_accepts (h : Accepts state) (text : String) :
  (recorded system).write state text = (.ok (), written state text)
  := by simp only [recording, System.withWriter, Writer.write_of_unlimited h.limit, written]

/-- What is written to a writer with a limit is written as far as it fits. -/
theorem write_limitedTo (system : System World) (state : Recorded World) (limit : Nat)
    {text : String} (htext : text ≠ "") :
  (recorded system).write (limitedTo limit state) text
    = (if state.1.2.content.size + text.utf8ByteSize ≤ limit then .ok () else .error .pipeClosed,
        limitedTo limit (written state text))
  := by
  simp only [recording, System.withWriter, limitedTo, written,
    Writer.write_limitedTo state.1.2 limit htext]

theorem flush_recorded (h : state.1.2.flushFails = false) :
  (recorded system).flush state = (.ok (), (state.1, state.2 ++ [.flush]))
  := by simp [recording, System.withWriter, Writer.flush, h]

/-- A command whose line is accepted is given to the shell. -/
theorem execute_of_accepts (h : Accepts state) (directory command : String) :
  (recorded system).execute directory state command
    = (answerOf command (system.shell state.1.1 directory command).1,
        executed system directory state command)
  := by
  rw [execute_of_flush directory (write_of_accepts h (command ++ "\n")) (flush_recorded h.flush)]
  simp [recording, System.withWriter, written, executed, Request.ofCommand]

/-- With a limit, a command is given to the shell if its line fits, as it is without. -/
theorem execute_limitedTo (h : Accepts state) (directory command : String) (limit : Nat) :
  EndAlike (fun state state' => Accepts state ∧ state' = limitedTo limit state)
    (((recorded system).environment directory |>.stopping (overflow limit)).execute state command)
    ((recorded system).execute directory (limitedTo limit state) command)
  := by
  have hwrite := write_limitedTo system state limit (line_ne_empty command)
  simp only [Environment.stopping, overflow]
  split
  · next hhalt =>
    split at hhalt
    · cases hhalt
    · next hfull =>
      cases hhalt
      rw [if_neg hfull] at hwrite
      rw [execute_of_write_error directory hwrite]
      exact .intro ⟨⟨h.limit, h.flush⟩, rfl⟩
  · next hhalt =>
    split at hhalt
    · next hfits =>
      rw [if_pos hfits] at hwrite
      have hflush : (limitedTo limit (written state (command ++ "\n"))).1.2.flushFails = false :=
        h.flush
      have hexecute : ((recorded system).environment directory).execute state command = _ :=
        execute_of_accepts h directory command
      rw [execute_of_flush directory hwrite (flush_recorded hflush), hexecute]
      apply EndAlike.intro
      exact ⟨⟨h.limit, h.flush⟩, by
        simp [recording, System.withWriter, written, executed, limitedTo, Request.ofCommand]⟩
    · cases hhalt

theorem after_of_accepts (system : System World) (h : Accepts state) (directory : String)
    (commands : List String) :
  let after := ((recorded system).environment directory).after state commands
  after.1.2 = state.1.2.accept (echoOf commands)
    ∧ after.2 = state.2 ++ commands.flatMap (Request.ofCommand directory)
  := by
  induction commands using List.reverseRecOn with
  | nil => simp [Environment.after, echoOf]
  | append_singleton commands command ih =>
    obtain ⟨hwriter, hrequests⟩ := ih
    have haccepts : Accepts (((recorded system).environment directory).after state commands) := by
      constructor
      · rw [hwriter]
        exact h.limit
      · rw [hwriter]
        exact h.flush
    have hexecute : ((recorded system).environment directory).execute _ command = _ :=
      execute_of_accepts haccepts directory command
    rw [Environment.after_snoc, hexecute, echoOf_append, ← Writer.accept_accept, echoOf_singleton,
      List.flatMap_append, List.flatMap_singleton, ← List.append_assoc, ← hwriter, ← hrequests]
    exact ⟨rfl, rfl⟩

theorem alike_limitedTo (system : System World) (directory : String) (limit : Nat) :
  Environment.Alike ((recorded system).environment directory |>.stopping (overflow limit))
    ((recorded system).environment directory)
    fun state state' => Accepts state ∧ state' = limitedTo limit state
  where
  modified := by
    rintro state _ ⟨-, rfl⟩
    rfl
  execute := by
    rintro state _ command ⟨haccepts, rfl⟩
    apply execute_limitedTo haccepts

/-- Commands of which none is stopped have lines that fit. -/
theorem echoOf_le_of_passes {commands : List String} (h : Accepts state)
    (hcontent : state.1.2.content.size ≤ limit)
    (hpasses : ((recorded system).environment directory).Passes (overflow limit) state commands) :
  state.1.2.content.size + (echoOf commands).utf8ByteSize ≤ limit
  := by
  cases commands using List.reverseRecOn with
  | nil => simpa [echoOf] using hcontent
  | append_singleton before command =>
    have hfits := hpasses before command List.prefix_rfl
    rw [overflow, (after_of_accepts system h directory before).1] at hfits
    split at hfits
    · next hle =>
      rw [Writer.size_accept] at hle
      rw [echoOf_append, String.utf8ByteSize_append, echoOf_singleton]
      omega
    · cases hfits

/-- A build with a limited writer, beside one without a limit: all lines fit, and then it ends in
the same way; or it ends at the first command whose line does not fit. -/
theorem build_limitedTo (system : System World) (h : Accepts state)
    (hcontent : state.1.2.content.size ≤ limit) (directory : String) (root : g.Id) :
  let env := (recorded system).environment directory
  let run := build env g (Marks.clear g) state root
  let run' := build env g (Marks.clear g) (limitedTo limit state) root
  (run'.result = run.result ∧ run'.commands = run.commands ∧
      run'.progress.world = limitedTo limit run.progress.world ∧
      state.1.2.content.size + (echoOf run.commands).utf8ByteSize ≤ limit) ∨
    ∃ before command, before ++ [command] <+: run.commands ∧
      run'.result = .error (.failure (.command (.echo command .pipeClosed))) ∧
      run'.progress.world = limitedTo limit (written (env.after state before) (command ++ "\n")) ∧
      state.1.2.content.size + (echoOf before).utf8ByteSize ≤ limit ∧
      limit < state.1.2.content.size + (echoOf (before ++ [command])).utf8ByteSize
  := by
  intro env run run'
  have hstop := build_stopping env (overflow limit) (Marks.clear g) state root
  have halike : Run.Alike Eq (fun state state' => Accepts state ∧ state' = limitedTo limit state)
      (build (env.stopping (overflow limit)) g (Marks.clear g) state root) run' :=
    build_alike (.refl g) (alike_limitedTo system directory limit) (fun hab => hab ▸ rfl)
      ⟨h, rfl⟩ rfl
  change Run.StopAlike env _ state _ run at hstop
  generalize build (env.stopping (overflow limit)) g (Marks.clear g) state root = stopped
    at hstop halike
  obtain ⟨hresult, hprogress, -⟩ := halike
  have hcommands : stopped.commands = run'.commands := hprogress.commands
  obtain ⟨-, hworld⟩ := hprogress.world
  cases hstop with
  | passed hreached hpasses =>
    left
    exact ⟨hresult.symm, hcommands.symm, hworld, echoOf_le_of_passes h hcontent hpasses⟩
  | @stopped before command e _ _ hstops hgiven hbegins herror =>
    right
    have hhalt := hstops.halt_eq
    unfold overflow at hhalt
    split at hhalt
    · cases hhalt
    · next hfull =>
      rw [(after_of_accepts system h directory before).1, Writer.size_accept] at hfull
      simp only [Option.some.injEq, Prod.mk.injEq] at hhalt
      obtain ⟨rfl, hafter⟩ := hhalt
      refine ⟨before, command, hgiven ▸ hbegins, hresult ▸ herror, ?_,
        echoOf_le_of_passes h hcontent hstops.passes, ?_⟩
      · rw [hworld, ← hafter]
      · rw [echoOf_append, String.utf8ByteSize_append, echoOf_singleton]
        omega

/-! ### An output that cannot be flushed -/

/-- Without a flush no shell is given a command. -/
theorem execute_of_flushFails (system : System World) (h : state.1.2.flushFails = true)
    (directory command : String) :
  let after := ((recorded system).execute directory state command).2
  after.1.2.flushFails = true
    ∧ after.2.filterMap Request.shell? = state.2.filterMap Request.shell?
  := by
  rcases hwrite : (recorded system).write state (command ++ "\n") with ⟨result, between⟩
  have hrecord := write_recording hwrite
  have hfails : between.1.2.flushFails = true := by
    cases hwrite
    exact (Writer.flushFails_write state.1.2 _).trans h
  have hshells : between.2.filterMap Request.shell? = state.2.filterMap Request.shell? := by
    rw [hrecord, List.filterMap_append]
    apply List.append_nil
  cases result with
  | error e =>
    rw [execute_of_write_error directory hwrite]
    exact ⟨hfails, hshells⟩
  | ok _ =>
    have hflush : (recorded system).flush between
        = (.error .flushRefused, (between.1, between.2 ++ [.flush])) := by
      simp [recording, System.withWriter, Writer.flush, hfails]
    rw [execute_of_flush_error directory hwrite hflush, ← hshells]
    refine ⟨hfails, ?_⟩
    rw [List.filterMap_append]
    apply List.append_nil

theorem after_of_flushFails (system : System World) (h : state.1.2.flushFails = true)
    (directory : String) (commands : List String) :
  let after := ((recorded system).environment directory).after state commands
  after.1.2.flushFails = true
    ∧ after.2.filterMap Request.shell? = state.2.filterMap Request.shell?
  := by
  induction commands using List.reverseRecOn with
  | nil => exact ⟨h, rfl⟩
  | append_singleton commands command ih =>
    obtain ⟨hfails, hshells⟩ := execute_of_flushFails system ih.1 directory command
    rw [Environment.after_snoc, ← ih.2]
    exact ⟨hfails, hshells⟩

end Host

end IncrementalBuild
