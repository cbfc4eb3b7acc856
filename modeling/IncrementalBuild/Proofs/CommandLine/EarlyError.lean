import IncrementalBuild.Proofs.BuildFile.Printing
import IncrementalBuild.Proofs.CommandLine.Recording
import IncrementalBuild.Proofs.Graph.Root
import IncrementalBuild.Proofs.Walk.Failure

/-!
# Errors that are found before anything is built

A run `Host.Ends` in one of four ways: the build file cannot be loaded, there is nothing to build,
the graph is written to the output, or a node is built.  An error is early if there is no build
file, or it cannot be read or is not a build file, or the target is unknown, or there is a cycle.
Only the survey of a build finds a cycle, so a run that ends in an early error has asked nothing
of its host.  A run that writes the graph gives no command to a shell, whatever the graph is.
And since a build file declares a target, a run does not end for the lack of one.
-/

namespace IncrementalBuild

variable {World : Type} {host : Host World} {options : Options} {world : World} {g : Graph}

/-- What stops a build is met by its survey, which changes nothing, or something in the world it
has led to is to blame, which is not a cycle. -/
theorem justified_or_blamed_of_build {env : Environment World} {root : g.Id} {e : Stop BuildError}
    (herror : (build env g (Marks.clear g) world root).result = .error e) :
  Survey.Justified env world root e ∧
      (build env g (Marks.clear g) world root).progress.world = world ∨
    Walk.Blamed env root (build env g (Marks.clear g) world root).progress.world e
  := by
  cases hsurvey : survey env world g root with
  | some e' =>
    left
    simp only [build, hsurvey] at herror ⊢
    cases herror
    exact ⟨(justified_of_survey hsurvey).1, rfl⟩
  | none => exact .inr (blamed_of_build hsurvey herror).1

/-! ### How a run ends -/

/-- A build file declares a target. -/
theorem BuildFile.exists_first_of_parse {text : String} (h : BuildFile.parse text = .ok g) :
  ∃ id, g.first = some id
  := by
  obtain ⟨-, id, -, -, hfirst⟩ := BuildFile.addLines_of_parse h
  exact ⟨id, hfirst⟩

/-- Why a build file cannot be loaded: there is none, or it cannot be read, or its text is not
that of a build file. -/
inductive Host.Unloadable (host : Host World) (options : Options) (world : World) :
    RunError → Prop
  | absent : host.isFile world options.buildFilePath = false →
    Unloadable host options world
      (.buildFileNotFound options.buildFilePath (options.file = defaultBuildFile))
  | unreadable {cause : SystemError} : host.read world options.buildFilePath = .error cause →
    Unloadable host options world (.unreadable options.buildFilePath cause)
  | malformed {text : String} {e : BuildFile.Error} :
    host.read world options.buildFilePath = .ok text → BuildFile.parse text = .error e →
    Unloadable host options world (.buildFile options.buildFilePath e)

/-- A build file has been loaded. -/
structure Host.Loads (host : Host World) (options : Options) (world : World) (g : Graph) :
    Prop where
  isFile : host.isFile world options.buildFilePath = true
  parse : ∃ text, host.read world options.buildFilePath = .ok text ∧ BuildFile.parse text = .ok g

/-- The graph is written and the output is flushed, or one of them fails. -/
inductive Host.Draws (host : Host World) (g : Graph) (world : World) :
    Except (Stop RunError) Unit × World → Prop
  | unwritten {cause : SystemError} {after : World} :
    host.write world g.dot = (.error cause, after) →
    Draws host g world (.error (.failure (.output "write graph" cause)), after)
  | unflushed {cause : SystemError} {between after : World} :
    host.write world g.dot = (.ok (), between) → host.flush between = (.error cause, after) →
    Draws host g world (.error (.failure (.output "flush output" cause)), after)
  | drawn {between after : World} :
    host.write world g.dot = (.ok (), between) → host.flush between = (.ok (), after) →
    Draws host g world (.ok (), after)

/-- A node is built, or its build is stopped, or it cannot be reported that it was up to date. -/
inductive Host.Builds (host : Host World) (directory : String) (g : Graph) (root : g.Id)
    (world : World) : Except (Stop RunError) Unit × World → Prop
  | failed {cause : Stop BuildError} :
    (build (host.environment directory) g (Marks.clear g) world root).result = .error cause →
    Builds host directory g root world (.error (cause.map .build),
      (build (host.environment directory) g (Marks.clear g) world root).progress.world)
  | unreported {task : String} {cause : SystemError} {after : World} :
    Builds host directory g root world (.error (.failure (.output task cause)), after)
  | built {after : World} : Builds host directory g root world (.ok (), after)

/-- How a run ends, and with what: the build file cannot be loaded, there is nothing to build,
the graph is to be written, or a node is to be built. -/
inductive Host.Ends (host : Host World) (options : Options) (world : World) :
    Except (Stop RunError) Unit × World → Prop
  | unloadable {e : RunError} : host.Unloadable options world e →
    Ends host options world (.error (.failure e), world)
  | rootless {g : Graph} {e : BuildError} : host.Loads options world g →
    g.Rootless options.target e → Ends host options world (.error (.failure (.build e)), world)
  | drawn {g : Graph} {ended : Except (Stop RunError) Unit × World} : options.graph = true →
    host.Draws g world ended → Ends host options world ended
  | built {g : Graph} {root : g.Id} {ended : Except (Stop RunError) Unit × World} :
    options.graph = false → host.Builds options.workingDirectory g root world ended →
    Ends host options world ended

namespace Host

theorem Loads.loadBuildFile_eq (h : host.Loads options world g) :
  host.loadBuildFile options world = .ok g
  := by
  obtain ⟨text, hread, hparse⟩ := h.parse
  simp only [loadBuildFile, System.load, h.isFile, hread, BuildFile.parseNamed_fst, hparse, if_true]

theorem loads_or_unloadable (host : Host World) (options : Options) (world : World) :
  (∃ g, host.Loads options world g) ∨
    ∃ e, host.loadBuildFile options world = .error e ∧ host.Unloadable options world e
  := by
  cases hfile : host.isFile world options.buildFilePath with
  | false =>
    right
    simp only [loadBuildFile, hfile]
    exact ⟨_, rfl, .absent hfile⟩
  | true =>
    cases hread : host.read world options.buildFilePath with
    | error cause =>
      right
      simp only [loadBuildFile, System.load, hfile, hread, if_true]
      exact ⟨_, rfl, .unreadable hread⟩
    | ok text =>
      cases hparse : BuildFile.parse text with
      | error e =>
        right
        simp only [loadBuildFile, System.load, hfile, hread, BuildFile.parseNamed_fst, hparse,
          if_true]
        exact ⟨_, rfl, .malformed hread hparse⟩
      | ok g => exact .inl ⟨g, hfile, text, hread, hparse⟩

theorem loads_of_loadBuildFile (h : host.loadBuildFile options world = .ok g) :
  host.Loads options world g
  := by
  rcases host.loads_or_unloadable options world with ⟨g', hloads⟩ | ⟨e, hload, -⟩
  · cases hloads.loadBuildFile_eq.symm.trans h
    exact hloads
  · rw [hload] at h
    cases h

theorem draws_writeGraph (host : Host World) (g : Graph) (world : World) :
  host.Draws g world (host.writeGraph g world)
  := by
  unfold writeGraph
  split
  · next hwrite => exact .unwritten hwrite
  · next hwrite =>
    split
    · next hflush => exact .unflushed hwrite hflush
    · next hflush => exact .drawn hwrite hflush

theorem builds_buildNode (host : Host World) (directory : String) (g : Graph) (root : g.Id)
    (world : World) :
  host.Builds directory g root world (host.buildNode directory g root world)
  := by
  simp only [buildNode]
  split
  · next herror => exact .failed herror
  · split
    · split
      · exact .unreported
      · exact .built
    · exact .built

theorem ends_run (host : Host World) (options : Options) (world : World) :
  host.Ends options world (host.run options world)
  := by
  rcases host.loads_or_unloadable options world with ⟨g, hloads⟩ | ⟨e, hload, hunloadable⟩
  · simp only [run, hloads.loadBuildFile_eq]
    cases hroot : g.root options.target with
    | error e => exact .rootless hloads (Graph.rootless_of_root hroot)
    | ok root =>
      cases hgraph : options.graph with
      | false => exact .built hgraph (host.builds_buildNode options.workingDirectory g root world)
      | true => exact .drawn hgraph (host.draws_writeGraph g world)
  · simp only [run, hload]
    exact .unloadable hunloadable

/-! ### Early errors -/

end Host

/-- An error is found before anything is built. -/
inductive RunError.IsEarly : RunError → Prop
  | buildFileNotFound (path : String) (isDefault : Bool) :
    IsEarly (.buildFileNotFound path isDefault)
  | unreadable (path : String) (cause : SystemError) : IsEarly (.unreadable path cause)
  | buildFile (path : String) (e : BuildFile.Error) : IsEarly (.buildFile path e)
  | unknownTarget (name : String) : IsEarly (.build (.unknownTarget name))
  | cyclicDependency (names : List String) : IsEarly (.build (.cyclicDependency names))

namespace Host

/-- A run that ends in an early error leaves the world it began in. -/
theorem world_of_isEarly {e : RunError} (herror : (host.run options world).1 = .error (.failure e))
    (hearly : e.IsEarly) :
  (host.run options world).2 = world
  := by
  have hends := host.ends_run options world
  generalize host.run options world = ended at hends herror ⊢
  cases hends with
  | unloadable _ => rfl
  | rootless _ _ => rfl
  | drawn _ hdraws => cases hdraws <;> cases herror <;> cases hearly
  | built _ hbuilds =>
    cases hbuilds with
    | built => cases herror
    | unreported =>
      cases herror
      cases hearly
    | @failed cause hresult =>
      obtain ⟨cause, rfl, rfl⟩ := Stop.map_eq_failure_iff.1 (Except.error.inj herror)
      rcases justified_or_blamed_of_build hresult with ⟨-, hworld⟩ | hblamed
      · exact hworld
      · cases hearly <;> cases hblamed

/-- A run does not end for the lack of a target. -/
theorem run_ne_noTargets (host : Host World) (options : Options) (world : World) :
  (host.run options world).1 ≠ .error (.failure (.build .noTargets))
  := by
  intro herror
  have hends := host.ends_run options world
  generalize host.run options world = ended at hends herror
  cases hends with
  | unloadable hunloadable =>
    cases herror
    cases hunloadable
  | rootless hloads hrootless =>
    cases herror
    obtain ⟨text, -, hparse⟩ := hloads.parse
    obtain ⟨id, hfirst⟩ := BuildFile.exists_first_of_parse hparse
    generalize options.target = target? at hrootless
    cases hrootless with
    | noTargets hnone => cases hnone.symm.trans hfirst
  | drawn _ hdraws => cases hdraws <;> cases herror
  | built _ hbuilds =>
    cases hbuilds with
    | built => cases herror
    | unreported => cases herror
    | failed hresult =>
      obtain ⟨cause, rfl, hcause⟩ := Stop.map_eq_failure_iff.1 (Except.error.inj herror)
      cases hcause
      rcases justified_or_blamed_of_build hresult with ⟨hjustified, -⟩ | hblamed
      · exact hjustified
      · cases hblamed

/-- An early error is found before anything is asked of the host. -/
theorem requests_of_isEarly {e : RunError}
    (herror : (host.run options world).1 = .error (.failure e))
    (hearly : e.IsEarly) :
  host.requests options world = []
  := by
  have hrecorded := host.run_recording options world
  have hworld : (host.recording.run options (world, [])).2 = (world, []) := by
    apply world_of_isEarly _ hearly
    rw [hrecorded, herror]
  rw [requests, hworld]

/-! ### Drawing the graph -/

theorem write_recording {state after : World × List Request} {text : String}
    {result : Except SystemError Unit} (h : host.recording.write state text = (result, after)) :
  after.2 = state.2 ++ [.write text]
  := by
  cases h
  rfl

theorem flush_recording {state after : World × List Request} {result : Except SystemError Unit}
    (h : host.recording.flush state = (result, after)) :
  after.2 = state.2 ++ [.flush]
  := by
  cases h
  rfl

/-- A run that draws the graph at most writes it and flushes the output. -/
theorem requests_of_graph (host : Host World) (world : World) (hgraph : options.graph = true) :
  ∃ g : Graph, host.requests options world <+: [.write g.dot, .flush]
  := by
  have hends := host.recording.ends_run options (world, [])
  unfold requests
  generalize host.recording.run options (world, []) = ended at hends ⊢
  cases hends with
  | unloadable _ => exact ⟨∅, List.nil_prefix⟩
  | rootless _ _ => exact ⟨∅, List.nil_prefix⟩
  | built hbuild _ => cases hgraph.symm.trans hbuild
  | @drawn g _ _ hdraws =>
    use g
    cases hdraws with
    | unwritten hwrite =>
      rw [write_recording hwrite]
      exact ⟨[.flush], rfl⟩
    | unflushed hwrite hflush =>
      rw [flush_recording hflush, write_recording hwrite]
      exact List.prefix_rfl
    | drawn hwrite hflush =>
      rw [flush_recording hflush, write_recording hwrite]
      exact List.prefix_rfl

/-- A run that draws the graph leaves alone what neither writing nor flushing changes. -/
theorem unchanged_of_graph {Files : Type} (files : World → Files)
    (hwrite : ∀ world text, files (host.write world text).2 = files world)
    (hflush : ∀ world, files (host.flush world).2 = files world) (world : World)
    (hgraph : options.graph = true) :
  files (host.run options world).2 = files world
  := by
  have hwritten {world after : World} {text : String} {result : Except SystemError Unit}
      (h : host.write world text = (result, after)) : files after = files world := by
    rw [← hwrite world text, h]
  have hflushed {world after : World} {result : Except SystemError Unit}
      (h : host.flush world = (result, after)) : files after = files world := by
    rw [← hflush world, h]
  have hends := host.ends_run options world
  generalize host.run options world = ended at hends ⊢
  cases hends with
  | unloadable _ => rfl
  | rootless _ _ => rfl
  | built hbuild _ => cases hgraph.symm.trans hbuild
  | drawn _ hdraws =>
    cases hdraws with
    | unwritten h => exact hwritten h
    | unflushed h h' => exact (hflushed h').trans (hwritten h)
    | drawn h h' => exact (hflushed h').trans (hwritten h)

/-- There is something to build if the target is declared, if any is given. -/
theorem Loads.exists_root (h : host.Loads options world g)
    (htarget : ∀ target, options.target = some target → g.IsDeclared target) :
  ∃ root, g.root options.target = .ok root
  := by
  cases hgiven : options.target with
  | none =>
    obtain ⟨text, -, hparse⟩ := h.parse
    obtain ⟨id, hfirst⟩ := BuildFile.exists_first_of_parse hparse
    exact Graph.exists_root_of_first hfirst
  | some target =>
    obtain ⟨root, -, hroot⟩ := (htarget target hgiven).exists_root
    exact ⟨root, hroot⟩

/-- The graph is drawn if the build file can be loaded, the target is declared, if any is given,
and the output takes the graph. -/
theorem run_of_graph {between after : World} (hloads : host.Loads options world g)
    (htarget : ∀ target, options.target = some target → g.IsDeclared target)
    (hgraph : options.graph = true) (hwrite : host.write world g.dot = (.ok (), between))
    (hflush : host.flush between = (.ok (), after)) :
  host.run options world = (.ok (), after)
  := by
  obtain ⟨root, hroot⟩ := hloads.exists_root htarget
  simp only [run, hloads.loadBuildFile_eq, hroot, hgraph, if_true, writeGraph, hwrite, hflush]

theorem Loads.recording (h : host.Loads options world g) (record : List Request) :
  host.recording.Loads options (world, record) g
  := ⟨h.isFile, h.parse⟩

theorem requests_of_drawn {between after : World} (hloads : host.Loads options world g)
    (htarget : ∀ target, options.target = some target → g.IsDeclared target)
    (hgraph : options.graph = true) (hwrite : host.write world g.dot = (.ok (), between))
    (hflush : host.flush between = (.ok (), after)) :
  host.requests options world = [.write g.dot, .flush]
  := by
  have hwrite' : host.recording.write (world, []) g.dot = (.ok (), (between, [.write g.dot])) := by
    simp only [Host.recording, hwrite]
    rfl
  have hflush' : host.recording.flush (between, [.write g.dot])
      = (.ok (), (after, [.write g.dot, .flush])) := by
    simp only [Host.recording, hflush]
    rfl
  rw [requests, run_of_graph (hloads.recording []) htarget hgraph hwrite' hflush']

end Host

/-- Errors found before anything is built leave no trace, and drawing the graph runs nothing.

If a run ends in an early error, the world is as it was and nothing has been asked of the host.
If it is to draw the graph, no shell is given a command, whatever the result, and nothing changes
that writing and flushing leave alone; and if the text of the build file is that of a graph, the
target is declared, if one is given, and the output takes the graph and is flushed, then the run
succeeds and that is all it has asked for.  A run does not end for the lack of a target. -/
theorem no_trace_of_run (host : Host World) (options : Options) (world : World) :
  (∀ e, (host.run options world).1 = .error (.failure e) → e.IsEarly →
      (host.run options world).2 = world ∧ host.requests options world = []) ∧
    (options.graph = true →
      (∀ directory command, .shell directory command ∉ host.requests options world) ∧
      (∀ {Files : Type} (files : World → Files),
        (∀ world text, files (host.write world text).2 = files world) →
        (∀ world, files (host.flush world).2 = files world) →
          files (host.run options world).2 = files world) ∧
      ∀ (text : String) (g : Graph) (between after : World),
        host.isFile world options.buildFilePath = true →
        host.read world options.buildFilePath = .ok text → BuildFile.parse text = .ok g →
        (∀ target, options.target = some target → g.IsDeclared target) →
        host.write world g.dot = (.ok (), between) → host.flush between = (.ok (), after) →
          host.run options world = (.ok (), after) ∧
            host.requests options world = [.write g.dot, .flush]) ∧
    (host.run options world).1 ≠ .error (.failure (.build .noTargets))
  := by
  refine ⟨fun e herror hearly => ?_, fun hgraph => ⟨?_, ?_, ?_⟩,
    host.run_ne_noTargets options world⟩
  · exact ⟨Host.world_of_isEarly herror hearly, Host.requests_of_isEarly herror hearly⟩
  · intro directory command hmem
    obtain ⟨g, hprefix⟩ := host.requests_of_graph world hgraph
    simpa using hprefix.subset hmem
  · intro Files files hwrite hflush
    exact Host.unchanged_of_graph files hwrite hflush world hgraph
  · intro text g between after hfile hread hparse htarget hwrite hflush
    have hloads : host.Loads options world g := ⟨hfile, text, hread, hparse⟩
    exact ⟨Host.run_of_graph hloads htarget hgraph hwrite hflush,
      Host.requests_of_drawn hloads htarget hgraph hwrite hflush⟩

/-! ### A build file with a cycle -/

/-- A system in which every path leads to a file with the given text, and commands do nothing. -/
def System.ofText (text : String) : System Unit where
  isFile _ _ := true
  read _ _ := .ok text
  stat _ _ := .error .notFound
  shell _ _ _ := (.ok (.exited 0), ())

/-- The system of a build file with a target that depends on itself. -/
def Host.selfish : Host (Unit × Writer) :=
  (System.ofText (print BuildFile.selfish)).withWriter

theorem loads_selfish (options : Options) (writer : Writer) :
  ∃ g, BuildFile.parse (print BuildFile.selfish) = .ok g ∧ ¬ g.IsDeclared "ghost" ∧
    Host.selfish.Loads options ((), writer) g
  := by
  have hprintable := BuildFile.printable_selfish
  obtain ⟨g, hparse⟩ :=
    BuildFile.exists_parse_iff_grammatical.2 (BuildFile.grammatical_print hprintable)
  have hrecords := BuildFile.records_of_parse hparse
  rw [BuildFile.blocksOf_print hprintable] at hrecords
  refine ⟨g, hparse, ?_, rfl, _, rfl, hparse⟩
  rw [hrecords.isDeclared_iff]
  decide

theorem run_ghost (writer : Writer) :
  (Host.selfish.run { Options.default with target := some "ghost" } ((), writer)).1
    = .error (.failure (.build (.unknownTarget "ghost")))
  := by
  obtain ⟨g, -, hghost, hloads⟩ := loads_selfish { Options.default with target := some "ghost" }
    writer
  simp only [Host.run, hloads.loadBuildFile_eq, Graph.root_some_of_not_isDeclared hghost]

/-- A target that is not there is found missing at once, and the graph is drawn although a target
depends on itself. -/
theorem no_trace_of_run_selfish :
  let ghostly : Options := { Options.default with target := some "ghost" }
  let graphic : Options := { Options.default with graph := true }
  (Host.selfish.run ghostly ((), .unlimited)).1
      = .error (.failure (.build (.unknownTarget "ghost"))) ∧
    (Host.selfish.run ghostly ((), .unlimited)).2 = ((), .unlimited) ∧
    Host.selfish.requests ghostly ((), .unlimited) = [] ∧
    ∃ g, BuildFile.parse (print BuildFile.selfish) = .ok g ∧
      (Host.selfish.run graphic ((), .unlimited)).1 = .ok () ∧
      Host.selfish.requests graphic ((), .unlimited) = [.write g.dot, .flush]
  := by
  intro ghostly graphic
  have hghost := run_ghost .unlimited
  obtain ⟨hearly, -⟩ := no_trace_of_run Host.selfish ghostly ((), .unlimited)
  obtain ⟨hworld, hrequests⟩ := hearly _ hghost (.unknownTarget "ghost")
  obtain ⟨g, hparse, -⟩ := loads_selfish graphic .unlimited
  obtain ⟨-, hgraph, -⟩ := no_trace_of_run Host.selfish graphic ((), .unlimited)
  obtain ⟨-, -, hdrawn⟩ := hgraph rfl
  obtain ⟨hrun, hdraw⟩ := hdrawn _ g _ _ rfl rfl hparse nofun rfl rfl
  exact ⟨hghost, hworld, hrequests, g, hparse, by rw [hrun], hdraw⟩

end IncrementalBuild
