import IncrementalBuild.CommandLine.Run
import IncrementalBuild.Proofs.Walk.Likeness

/-!
# What a run asks of its host

A run can change something by three requests to its host: that a text be written to the output,
that the output be flushed, and that a shell be given a command.  `Host.recording` is the host
that keeps a record of these requests beside its world, and `Host.requests` is the record of a
run.  The recording host is like the host that is recorded, `Host.Alike`, and runs on hosts that
are alike have the same result and leave worlds that are related.  So the record is that of the
very run.
-/

namespace IncrementalBuild

variable {World World' : Type} {W : World → World' → Prop} {host : Host World}
  {host' : Host World'} {world : World} {world' : World'}

/-! ### Hosts that are alike -/

/-- In related worlds two hosts have the same files, and answer every request in the same way and
with worlds that are related. -/
structure Host.Alike (host : Host World) (host' : Host World') (W : World → World' → Prop) :
    Prop where
  isFile : ∀ {world world'}, W world world' → host.isFile world = host'.isFile world'
  read : ∀ {world world'}, W world world' → host.read world = host'.read world'
  stat : ∀ {world world'}, W world world' → host.stat world = host'.stat world'
  shell : ∀ {world world'} (directory command : String), W world world' →
    EndAlike W (host.shell world directory command) (host'.shell world' directory command)
  write : ∀ {world world'} (text : String), W world world' →
    EndAlike W (host.write world text) (host'.write world' text)
  flush : ∀ {world world'}, W world world' → EndAlike W (host.flush world) (host'.flush world')

namespace Host.Alike

theorem execute (h : Alike host host' W) (hworld : W world world') (directory command : String) :
  EndAlike W (host.execute directory world command) (host'.execute directory world' command)
  := by
  obtain ⟨result, world, world', hwrite, hwrite', hworld⟩ :=
    (h.write (command ++ "\n") hworld).exists_eq
  simp only [Host.execute, hwrite, hwrite']
  cases result with
  | error e => exact .intro hworld
  | ok _ =>
    obtain ⟨result, world, world', hflush, hflush', hworld⟩ := (h.flush hworld).exists_eq
    simp only [hflush, hflush']
    cases result with
    | error e => exact .intro hworld
    | ok _ =>
      obtain ⟨result, world, world', hshell, hshell', hworld⟩ :=
        (h.shell directory command hworld).exists_eq
      simp only [hshell, hshell']
      cases result with
      | error e => exact .intro hworld
      | ok status =>
        cases status with
        | signalled => exact .intro hworld
        | exited code => cases code <;> exact .intro hworld

theorem environment (h : Alike host host' W) (directory : String) :
  Environment.Alike (host.environment directory) (host'.environment directory) W
  where
  modified := by
    intro world world' hworld
    funext name
    simp only [Host.environment, System.modified, h.stat hworld]
  execute := fun command hworld => h.execute hworld directory command

theorem loadBuildFile (h : Alike host host' W) (hworld : W world world') (options : Options) :
  host.loadBuildFile options world = host'.loadBuildFile options world'
  := by simp only [Host.loadBuildFile, System.load, h.isFile hworld, h.read hworld]

theorem writeGraph (h : Alike host host' W) (hworld : W world world') (g : Graph) :
  EndAlike W (host.writeGraph g world) (host'.writeGraph g world')
  := by
  obtain ⟨result, world, world', hwrite, hwrite', hworld⟩ := (h.write g.dot hworld).exists_eq
  simp only [Host.writeGraph, hwrite, hwrite']
  cases result with
  | error e => exact .intro hworld
  | ok _ =>
    obtain ⟨result, world, world', hflush, hflush', hworld⟩ := (h.flush hworld).exists_eq
    simp only [hflush, hflush']
    cases result <;> exact .intro hworld

theorem buildNode (h : Alike host host' W) (hworld : W world world') (directory : String)
    (g : Graph) (root : g.Id) :
  EndAlike W (host.buildNode directory g root world) (host'.buildNode directory g root world')
  := by
  have hbuild : Run.Alike Eq W (build (host.environment directory) g (Marks.clear g) world root)
      (build (host'.environment directory) g (Marks.clear g) world' root) :=
    build_alike (.refl g) (h.environment directory) (fun hab => hab ▸ rfl) hworld rfl
  unfold Host.buildNode
  generalize build (host.environment directory) g _ world root = run at hbuild ⊢
  generalize build (host'.environment directory) g _ world' root = run' at hbuild ⊢
  obtain ⟨hresult, hprogress, -⟩ := hbuild
  simp only [hresult]
  cases run'.result with
  | error e => exact .intro hprogress.world
  | ok outcome =>
    simp only
    split
    · obtain ⟨result, world, world', hwrite, hwrite', hworld⟩ :=
        (h.write (outcome.root ++ " is up to date.\n") hprogress.world).exists_eq
      simp only [hwrite, hwrite']
      cases result <;> exact .intro hworld
    · exact .intro hprogress.world

/-- Runs on hosts that are alike have the same result, and leave worlds that are related. -/
theorem run (h : Alike host host' W) (hworld : W world world') (options : Options) :
  EndAlike W (host.run options world) (host'.run options world')
  := by
  unfold Host.run
  rw [h.loadBuildFile hworld]
  cases host'.loadBuildFile options world' with
  | error e => exact .intro hworld
  | ok g =>
    simp only
    cases g.root options.target with
    | error e => exact .intro hworld
    | ok root =>
      simp only
      split
      · exact h.writeGraph hworld g
      · exact h.buildNode hworld options.workingDirectory g root

end Host.Alike

/-! ### The record of a run -/

/-- What a run can ask of its host that may change something. -/
inductive Request
  | write (text : String)
  | flush
  | shell (directory command : String)
deriving DecidableEq, Repr

namespace Host

/-- The host that keeps a record of the requests, from the first to the last. -/
def recording (host : Host World) : Host (World × List Request) where
  isFile state := host.isFile state.1
  read state := host.read state.1
  stat state := host.stat state.1
  shell state directory command :=
    match host.shell state.1 directory command with
    | (result, world) => (result, (world, state.2 ++ [.shell directory command]))
  write state text :=
    match host.write state.1 text with
    | (result, world) => (result, (world, state.2 ++ [.write text]))
  flush state :=
    match host.flush state.1 with
    | (result, world) => (result, (world, state.2 ++ [.flush]))

/-- The requests that a run makes, from the first to the last. -/
def requests (host : Host World) (options : Options) (world : World) : List Request :=
  (host.recording.run options (world, [])).2.2

/-- A host with a record is like the one without. -/
theorem alike_recording (host : Host World) :
  Alike host host.recording fun world state => world = state.1
  where
  isFile := by rintro _ state rfl; rfl
  read := by rintro _ state rfl; rfl
  stat := by rintro _ state rfl; rfl
  shell := by rintro _ state directory command rfl; exact .intro rfl
  write := by rintro _ state text rfl; exact .intro rfl
  flush := by rintro _ state rfl; exact .intro rfl

/-- A run with a record has the result of the run without, and leaves its world. -/
theorem run_recording (host : Host World) (options : Options) (world : World) :
  host.recording.run options (world, [])
    = ((host.run options world).1, ((host.run options world).2, host.requests options world))
  := by
  have hstart : world = ((world, []) : World × List Request).1 := rfl
  have halike := host.alike_recording.run hstart options
  obtain ⟨result, after, state, hrun, hrecorded, rfl⟩ := halike.exists_eq
  simp only [requests, hrun, hrecorded]

end Host

end IncrementalBuild
