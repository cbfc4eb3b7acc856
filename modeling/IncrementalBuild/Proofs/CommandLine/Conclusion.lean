import IncrementalBuild.CommandLine.Run
import IncrementalBuild.Proofs.Walk.Ledger

/-!
# How a run is concluded

A run that builds a node ends with a notice if the build succeeded without a command.
`Host.conclude` says what becomes of a build in this way, and the lemmas `run_of_…` what a run comes
to: the build file cannot be loaded, or there is no root, or a graph is written, or a build is
concluded.
-/

namespace IncrementalBuild.Host

variable {World : Type} {g : Graph}

/-- The notice that is written at the end of a build: the root is up to date, if the build
succeeded without a command. -/
def noticeOf (root : g.Id) (run : Run g World) : String :=
  match run.result with
  | .error _ => ""
  | .ok _ => if run.commands = [] then g.name root ++ " is up to date.\n" else ""

/-- How a build is concluded: what has stopped it is passed on, or the notice is written if there is
one. -/
def conclude (host : Host World) (root : g.Id) (run : Run g World) :
    Except (Stop RunError) Unit × World :=
  match run.result with
  | .error e => (.error (e.map .build), run.progress.world)
  | .ok _ =>
    if run.commands = [] then
      match host.write run.progress.world (g.name root ++ " is up to date.\n") with
      | (.error cause, world) =>
        (.error (.failure (.output ("report " ++ g.name root) cause)), world)
      | (.ok (), world) => (.ok (), world)
    else
      (.ok (), run.progress.world)

/-- Nothing is done any more when a build is concluded but, at most, that the notice is written. -/
theorem world_conclude (host : Host World) (root : g.Id) (run : Run g World) :
  (conclude host root run).2 = run.progress.world ∨
    (conclude host root run).2
      = (host.write run.progress.world (g.name root ++ " is up to date.\n")).2
  := by
  simp only [conclude]
  cases run.result with
  | error e =>
    left
    rfl
  | ok outcome =>
    simp only
    split
    · right
      rcases host.write run.progress.world (g.name root ++ " is up to date.\n") with ⟨result, after⟩
      cases result <;> rfl
    · left
      rfl

theorem buildNode_eq_conclude (host : Host World) (directory : String)
    (root : g.Id) (world : World) :
  host.buildNode directory g root world
    = conclude host root (build (host.environment directory) g (Marks.clear g) world root)
  := by
  cases hresult : (build (host.environment directory) g (Marks.clear g) world root).result with
  | error e => simp only [buildNode, conclude, hresult]
  | ok outcome =>
    obtain ⟨order, hpost, -⟩ := exists_postOrderOf_of_survey (survey_of_build hresult)
    obtain ⟨-, hbooked, houtcome⟩ := booked_of_build hpost hresult
    have hroot : outcome.root = g.name root := by rw [houtcome]
    have hnone : outcome.isUpToDate = true ↔
        (build (host.environment directory) g (Marks.clear g) world root).commands = [] := by
      rw [← List.length_eq_zero_iff]
      change _ ↔ (Progress.commands _).length = 0
      rw [← hbooked.commandsRun, houtcome]
      simp [Outcome.isUpToDate]
    simp only [buildNode, conclude, hresult, hroot]
    exact if_congr hnone rfl rfl

/-! ### Runs -/

variable {host : Host World} {options : Options} {world : World}

theorem run_of_unloaded {e : RunError} (hload : host.loadBuildFile options world = .error e) :
  host.run options world = (.error (.failure e), world)
  := by simp only [run, hload]

theorem run_of_rootless {e : BuildError} (hload : host.loadBuildFile options world = .ok g)
    (hroot : g.root options.target = .error e) :
  host.run options world = (.error (.failure (.build e)), world)
  := by simp only [run, hload, hroot]

theorem run_of_drawn {root : g.Id} (hload : host.loadBuildFile options world = .ok g)
    (hroot : g.root options.target = .ok root) (hgraph : options.graph = true) :
  host.run options world = host.writeGraph g world
  := by simp only [run, hload, hroot, hgraph, if_true]

/-- A run that comes to building a node ends as the build is concluded. -/
theorem run_of_root {root : g.Id} (hload : host.loadBuildFile options world = .ok g)
    (hroot : g.root options.target = .ok root) (hgraph : options.graph = false) :
  host.run options world
    = host.conclude root
        (build (host.environment options.workingDirectory) g (Marks.clear g) world root)
  := by
  simp only [run, hload, hroot, hgraph, Bool.false_eq_true, if_false]
  apply buildNode_eq_conclude

end IncrementalBuild.Host
