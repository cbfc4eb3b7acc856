import IncrementalBuild.Proofs.CommandLine.Conclusion
import IncrementalBuild.Proofs.CommandLine.Limit

/-!
# What a record tells

Only the shell changes the world of a system with a writer.  So the commands that a record tells of
lead to the world, `Host.Told`, which holds of every run; and since nothing is taken out of a
record, the records of a build tell of every world that the build passes through.

A run gives all its commands to the shell in one directory.  `Host.recordingIn` keeps the record
that there would be in another one.
-/

namespace IncrementalBuild

variable {World : Type}

/-- The world that commands lead to, each given to the shell in a directory. -/
def System.replay (system : System World) (world : World) (commands : List (String × String)) :
    World :=
  commands.foldl (fun world (directory, command) => (system.shell world directory command).2) world

theorem System.replay_snoc (system : System World) (world : World)
    (commands : List (String × String)) (directory command : String) :
  system.replay world (commands ++ [(directory, command)])
    = (system.shell (system.replay world commands) directory command).2
  := by simp [replay]

namespace Host

variable {system : System World} {world : World} {state state' : Recorded World}

/-! ### Worlds that a record tells of -/

/-- The commands of the record have led from a world to the world of the state. -/
def Told (system : System World) (world : World) (state : Recorded World) : Prop :=
  state.1.1 = system.replay world (state.2.filterMap Request.shell?)

theorem told_start (system : System World) (world : World) (writer : Writer) :
  Told system world ((world, writer), [])
  := rfl

theorem eq_of_write {text : String} {result : Except SystemError Unit}
    (h : (recorded system).write state text = (result, state')) :
  state' = ((state.1.1, (state.1.2.write text).2), state.2 ++ [.write text])
  := by
  cases h
  rfl

theorem eq_of_flush {result : Except SystemError Unit}
    (h : (recorded system).flush state = (result, state')) :
  state' = (state.1, state.2 ++ [.flush])
  := by
  cases h
  rfl

/-- How an execution changes a state: the world, and the record, to which it adds. -/
inductive Adds (system : System World) (directory command : String) :
    Recorded World → Recorded World → Prop
  /-- The shell is not given the command. -/
  | silent {before : Recorded World} (writer : Writer) (requests : List Request) :
    requests.filterMap Request.shell? = [] →
      Adds system directory command before ((before.1.1, writer), before.2 ++ requests)
  | given {before : Recorded World} (writer : Writer) (requests : List Request) :
    requests.filterMap Request.shell? = [(directory, command)] →
      Adds system directory command before
        (((system.shell before.1.1 directory command).2, writer), before.2 ++ requests)

theorem adds_execute (system : System World) (directory : String) (before : Recorded World)
    (command : String) :
  Adds system directory command before ((recorded system).execute directory before command).2
  := by
  have hexecutes := (recorded system).executes_execute directory before command
  generalize (recorded system).execute directory before command = ended at hexecutes
  cases hexecutes with
  | unwritten hwrite =>
    rw [eq_of_write hwrite]
    exact .silent _ _ rfl
  | unflushed hwrite hflush =>
    rw [eq_of_flush hflush, eq_of_write hwrite, List.append_assoc]
    exact .silent _ _ rfl
  | given hwrite hflush =>
    rw [eq_of_flush hflush, eq_of_write hwrite]
    simp only [recording, System.withWriter, List.append_assoc]
    exact .given _ _ rfl

theorem Told.of_adds {directory command : String} (h : Told system world state)
    (hadds : Adds system directory command state state') :
  Told system world state'
  := by
  unfold Told at h ⊢
  cases hadds with
  | silent writer requests hshells =>
    rw [List.filterMap_append, hshells, List.append_nil]
    exact h
  | given writer requests hshells =>
    rw [List.filterMap_append, hshells, System.replay_snoc, ← h]

/-- What the commands of a build have led to is told by the record. -/
theorem Told.after (h : Told system world state) (directory : String)
    (commands : List String) :
  Told system world (((recorded system).environment directory).after state commands)
  := by
  induction commands using List.reverseRecOn with
  | nil => exact h
  | append_singleton commands command ih =>
    rw [Environment.after_snoc]
    apply ih.of_adds (adds_execute system directory _ command)

theorem Adds.begins {directory command : String} (h : Adds system directory command state state') :
  state.2 <+: state'.2
  := by cases h <;> apply List.prefix_append

/-- Nothing is taken out of the record. -/
theorem record_prefix_after (system : System World) (directory : String) (state : Recorded World)
    {first commands : List String} (h : first <+: commands) :
  (((recorded system).environment directory).after state first).2
    <+: (((recorded system).environment directory).after state commands).2
  := by
  obtain ⟨rest, rfl⟩ := h
  induction rest using List.reverseRecOn with
  | nil => simp only [List.append_nil, List.prefix_rfl]
  | append_singleton rest command ih =>
    rw [← List.append_assoc, Environment.after_snoc]
    apply ih.trans (adds_execute system directory _ command).begins

/-- A request that gives nothing to the shell does not change the world. -/
theorem Told.snoc {request : Request} (h : Told system world state) (writer : Writer)
    (hrequest : request.shell? = none) :
  Told system world ((state.1.1, writer), state.2 ++ [request])
  := by
  rw [Told, List.filterMap_append, List.filterMap_cons_none hrequest, List.filterMap_nil,
    List.append_nil]
  exact h

theorem Told.write (h : Told system world state) (text : String) :
  Told system world ((recorded system).write state text).2
  := by
  rw [eq_of_write (Prod.eta _).symm]
  apply h.snoc _ rfl

theorem Told.writeGraph (h : Told system world state) (g : Graph) :
  Told system world ((recorded system).writeGraph g state).2
  := by
  have hdraws := (recorded system).draws_writeGraph g state
  generalize (recorded system).writeGraph g state = ended at hdraws
  have hwritten := h.write g.dot
  cases hdraws with
  | unwritten hwrite => rwa [hwrite] at hwritten
  | unflushed hwrite hflush | drawn hwrite hflush =>
    rw [hwrite] at hwritten
    rw [eq_of_flush hflush]
    apply hwritten.snoc _ rfl

theorem Told.conclude {g : Graph} {root : g.Id} {run : Run g (Recorded World)}
    (h : Told system world run.progress.world) :
  Told system world ((recorded system).conclude root run).2
  := by
  rcases (recorded system).world_conclude root run with hworld | hworld
  · rwa [hworld]
  · rw [hworld]
    apply h.write

/-- The commands that a run gives to the shell lead to the world that it leaves. -/
theorem told_run (system : System World) (options : Options) (world : World) (writer : Writer) :
  Told system world ((recorded system).run options ((world, writer), [])).2
  := by
  have hstart := told_start system world writer
  cases hload : (recorded system).loadBuildFile options ((world, writer), []) with
  | error e => rwa [run_of_unloaded hload]
  | ok g =>
    cases hroot : g.root options.target with
    | error e => rwa [run_of_rootless hload hroot]
    | ok root =>
      cases hgraph : options.graph with
      | true =>
        rw [run_of_drawn hload hroot hgraph]
        apply hstart.writeGraph
      | false =>
        rw [run_of_root hload hroot hgraph]
        apply Told.conclude
        rw [world_of_build]
        apply hstart.after

/-- Nothing but its commands changes the world of a run. -/
theorem world_run (system : System World) (options : Options) (world : World) (writer : Writer) :
  (system.withWriter.run options (world, writer)).2.1
    = system.replay world
        ((system.withWriter.requests options (world, writer)).filterMap Request.shell?)
  := by
  have htold := told_run system options world writer
  rwa [Told, run_recording] at htold

end Host

/-! ### Records of one directory -/

/-- The request as it would be made in a directory. -/
def Request.within (directory : String) : Request → Request
  | write text => .write text
  | flush => .flush
  | shell _ command => .shell directory command

theorem Request.filterMap_shell?_within (directory : String) (requests : List Request) :
  (requests.map (within directory)).filterMap shell?
    = (requests.filterMap shell?).map fun (_, command) => (directory, command)
  := by
  induction requests with
  | nil => rfl
  | cons request requests ih =>
    cases request with
    | write text => exact ih
    | flush => exact ih
    | shell _ command => exact congrArg _ ih

namespace Host

/-- The host that keeps a record as if every command was given to the shell in one directory. -/
def recordingIn (host : Host World) (directory : String) : Host (World × List Request) :=
  { host.recording with
    shell := fun state given command =>
      match host.shell state.1 given command with
      | (result, world) => (result, (world, state.2 ++ [.shell directory command])) }

/-- The records of a run differ in nothing but the directory that they tell. -/
theorem alike_recordingIn (host : Host World) (directory : String) :
  Alike host.recording (host.recordingIn directory)
    fun state state' => state' = (state.1, state.2.map (Request.within directory))
  where
  isFile := by rintro state _ rfl; rfl
  read := by rintro state _ rfl; rfl
  stat := by rintro state _ rfl; rfl
  shell := by
    rintro state _ given command rfl
    apply EndAlike.intro
    rw [List.map_append]
    rfl
  write := by
    rintro state _ text rfl
    apply EndAlike.intro
    rw [List.map_append]
    rfl
  flush := by
    rintro state _ rfl
    apply EndAlike.intro
    rw [List.map_append]
    rfl

theorem run_recordingIn (host : Host World) (directory : String) (options : Options)
    (world : World) :
  (host.recordingIn directory).run options (world, [])
    = ((host.run options world).1, ((host.run options world).2,
        (host.requests options world).map (Request.within directory)))
  := by
  have halike : EndAlike _ (host.recording.run options (world, []))
      ((host.recordingIn directory).run options (world, [])) :=
    (host.alike_recordingIn directory).run rfl options
  obtain ⟨result, after, _, hrun, hrun', rfl⟩ := halike.exists_eq
  rw [run_recording] at hrun
  cases hrun
  exact hrun'

/-- A run gives its commands to the shell in the directory that the options name. -/
theorem run_recordingIn_workingDirectory (host : Host World) (options : Options) (world : World) :
  (host.recordingIn options.workingDirectory).run options (world, [])
    = host.recording.run options (world, [])
  := rfl

theorem shells_eq (host : Host World) (options : Options) (world : World) :
  (host.requests options world).filterMap Request.shell?
    = ((host.requests options world).filterMap Request.shell?).map
        fun (_, command) => (options.workingDirectory, command)
  := by
  have hrun := host.run_recordingIn options.workingDirectory options world
  rw [run_recordingIn_workingDirectory, run_recording, Prod.mk.injEq, Prod.mk.injEq] at hrun
  rw [← Request.filterMap_shell?_within, ← hrun.2.2]

end Host

end IncrementalBuild
