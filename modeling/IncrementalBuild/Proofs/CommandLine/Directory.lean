import IncrementalBuild.Proofs.BuildFile.WellFormed
import IncrementalBuild.Proofs.CommandLine.Output
import IncrementalBuild.Proofs.CommandLine.Replay
import IncrementalBuild.Proofs.CommandLine.Resolution
import IncrementalBuild.Proofs.Walk.Agreement

/-!
# Running in a directory

A run that is told to run in a directory does what a run does that is started in that directory.
Here a system is used from outside of the directory, and one from inside, and in every world that
the first run passes through they resolve alike, `System.ResolvesAlike`.  Then the build file and
the names of the graph have the same files for both runs, and commands do the same.  So in these
worlds the environments of the two builds agree, but for the paths of errors.
-/

namespace IncrementalBuild

variable {World : Type} {g : Graph}

/-! ### Times without paths -/

/-- The error of a file tells its path, read from a directory, where it has told its name. -/
def StatError.under (directory : String) (e : StatError) : StatError :=
  ⟨Path.join directory e.path, e.cause⟩

/-- When the file of a name, read from a directory, was last modified.  An error tells the name. -/
def System.timed (system : System World) (directory : String) (world : World) (name : String) :
    Except (Stop StatError) (Option Stamp) :=
  (system.modified directory world name).mapError (.map fun e => ⟨name, e.cause⟩)

theorem System.modified_eq (system : System World) (directory : String) (world : World)
    (name : String) :
  system.modified directory world name
    = (system.timed directory world name).mapError (.map (.under directory))
  := by
  simp only [timed, modified]
  cases system.stat world (Path.join directory name) with
  | ok time =>
    simp only
    cases Stamp.ofFileTime? time.secs time.nanos <;> rfl
  | error e =>
    simp only
    split <;> rfl

/-- The environment of a directory in which errors tell names. -/
def Host.nameless (host : Host World) (directory : String) : Environment World where
  modified := host.timed directory
  execute := host.execute directory

theorem Host.relabels_nameless (host : Host World) (directory : String) (g : Graph) :
  (host.nameless directory).Relabels (.under directory) g (host.environment directory)
  where
  modified world node := host.modified_eq directory world (g.name node)
  execute _ _ := rfl

/-! ### While the systems resolve alike -/

namespace System.ResolvesAlike

variable {outside inside : System World} {directory : String} {limit : Nat} {world : World}
  {state : Host.Recorded World}

/-- Outside, the file of a name is read from the directory, and inside from the current
directory. -/
theorem timed_eq {name : String} (h : outside.ResolvesAlike inside directory limit world)
    (hname : name ≠ "") (hshort : (Path.join directory name).utf8ByteSize ≤ limit)
    (hcurrent : (Path.join "." name).utf8ByteSize ≤ limit) :
  inside.timed "." world name = outside.timed directory world name
  := by
  simp only [timed, modified, h.stat name hname hshort, h.current name hname hcurrent]
  cases inside.stat world name with
  | ok time => rfl
  | error e =>
    simp only
    split <;> rfl

/-- A command is executed in the directory as it is inside. -/
theorem execute_eq (h : outside.ResolvesAlike inside directory limit state.1.1)
    (command : String) :
  (inside.withWriter.recordingIn directory).execute "." state command
    = (Host.recorded outside).execute directory state command
  := by
  have hexecutes := (Host.recorded outside).executes_execute directory state command
  generalize (Host.recorded outside).execute directory state command = ended at hexecutes
  -- writing and flushing do not depend on the system
  cases hexecutes with
  | unwritten hwrite => exact Host.execute_of_write_error "." hwrite
  | unflushed hwrite hflush => exact Host.execute_of_flush_error "." hwrite hflush
  | @given written flushed hwrite hflush =>
    have hworld : flushed.1.1 = state.1.1 := by
      rw [Host.eq_of_flush hflush, Host.eq_of_write hwrite]
    have hshell : (inside.withWriter.recordingIn directory).shell flushed "." command
        = (Host.recorded outside).shell flushed directory command := by
      simp only [Host.recordingIn, Host.recording, System.withWriter, hworld, h.shell]
    rw [← hshell]
    exact Host.execute_of_flush "." hwrite hflush

/-- The environment of a run in the directory and that of a run inside agree in the worlds in which
the systems resolve alike. -/
theorem agrees (hdirectory : Path.isAbsolute directory = false) (hempty : directory ≠ "")
    (hnames : ∀ node : g.Id, g.name node ≠ "")
    (hshort : ∀ name ∈ g.names, (Path.join directory name).utf8ByteSize ≤ limit) :
  ((Host.recorded outside).nameless directory).Agrees (.under ".") g
    (fun state => outside.ResolvesAlike inside directory limit state.1.1)
    ((inside.withWriter.recordingIn directory).environment ".")
  where
  modified := by
    intro state halike node
    have hname := hshort _ (g.name_mem_names node)
    have htimed := halike.timed_eq (hnames node) hname
      ((FileTree.utf8ByteSize_join_dot_le hdirectory hempty _).trans hname)
    have hmodified := inside.modified_eq "." state.1.1 (g.name node)
    rw [htimed] at hmodified
    exact hmodified
  execute halike command := halike.execute_eq command

end System.ResolvesAlike

/-! ### Builds -/

/-- As long as the systems resolve alike, a build in the directory and a build inside come to the
same, but for the paths of errors. -/
theorem exists_build_of_resolvesAlike {outside inside : System World} {directory : String}
    {limit : Nat} {world : World} {writer : Writer} {root : g.Id}
    (hdirectory : Path.isAbsolute directory = false) (hempty : directory ≠ "")
    (hnames : ∀ node : g.Id, g.name node ≠ "")
    (hshort : ∀ name ∈ g.names, (Path.join directory name).utf8ByteSize ≤ limit) :
  let start : Host.Recorded World := ((world, writer), [])
  let run := build ((Host.recorded outside).environment directory) g (Marks.clear g) start root
  let run' := build ((inside.withWriter.recordingIn directory).environment ".") g (Marks.clear g)
    start root
  (∀ log, log <+: run.progress.world.2.filterMap Request.shell? →
      outside.ResolvesAlike inside directory limit (outside.replay world log)) →
    ∃ result : Except (Stop BuildError) Outcome,
      run.result = result.mapError (.map (BuildError.relabel (.under directory))) ∧
      run'.result = result.mapError (.map (BuildError.relabel (.under "."))) ∧
      run'.commands = run.commands ∧ run'.progress.world = run.progress.world
  := by
  intro start run run' halike
  have hrun : run = (build ((Host.recorded outside).nameless directory) g (Marks.clear g) start
      root).relabel _ :=
    build_relabel ((Host.recorded outside).relabels_nameless directory g) (Marks.clear g) start root
  have hcommands : run.commands = (build ((Host.recorded outside).nameless directory) g
      (Marks.clear g) start root).commands := by
    rw [hrun, Run.commands_relabel]
  have hworld : run.progress.world
      = ((Host.recorded outside).environment directory).after start run.commands :=
    world_of_build ..
  rw [hworld] at halike
  obtain ⟨hresult', hcommands', hworld'⟩ := build_of_agrees (Marks.clear g) root
    (System.ResolvesAlike.agrees hdirectory hempty hnames hshort) fun before hbegins => by
      have htold := (Host.told_start outside world writer).after directory before
      change outside.ResolvesAlike inside directory limit
        (((Host.recorded outside).environment directory).after start before).1.1
      rw [htold]
      apply halike
      apply List.IsPrefix.filterMap
      apply Host.record_prefix_after outside directory start (hcommands ▸ hbegins)
  refine ⟨_, by rw [hrun]; rfl, hresult', ?_, ?_⟩
  · rw [hcommands]
    exact hcommands'
  · rw [hrun]
    exact hworld'

/-! ### Runs -/

/-- How a run in a directory ends, and how a run ends that is started there: both succeed, or both
panic, or both fail for the same reason.  Where the error of the second run tells the path of the
build file or of a name, the error of the first one tells the path of it read from the
directory. -/
inductive ResultAlike (directory file : String) :
    Except (Stop RunError) Unit → Except (Stop RunError) Unit → Prop
  | success : ResultAlike directory file (.ok ()) (.ok ())
  | panic : ResultAlike directory file (.error .panic) (.error .panic)
  | buildFileNotFound (isDefault : Bool) :
    ResultAlike directory file
      (.error (.failure (.buildFileNotFound (Path.join directory file) isDefault)))
      (.error (.failure (.buildFileNotFound file isDefault)))
  | unreadable (cause : SystemError) :
    ResultAlike directory file (.error (.failure (.unreadable (Path.join directory file) cause)))
      (.error (.failure (.unreadable file cause)))
  | buildFile (e : BuildFile.Error) :
    ResultAlike directory file (.error (.failure (.buildFile (Path.join directory file) e)))
      (.error (.failure (.buildFile file e)))
  | build (e : BuildError) :
    ResultAlike directory file (.error (.failure (.build (e.relabel (.under directory)))))
      (.error (.failure (.build (e.relabel (.under ".")))))
  | output (task : String) (cause : SystemError) :
    ResultAlike directory file (.error (.failure (.output task cause)))
      (.error (.failure (.output task cause)))

/-- The error for the lack of a root tells no path. -/
theorem Graph.relabel_of_root {target? : Option String} {e : BuildError}
    (h : g.root target? = .error e) (f : StatError → StatError) :
  e.relabel f = e
  := by cases rootless_of_root h <;> rfl

section

variable {outside inside : System World} {directory file : String} {state : Host.Recorded World}

theorem conclude_alike {root : g.Id} {run run' : Run g (Host.Recorded World)}
    {result : Except (Stop BuildError) Outcome}
    (hresult : run.result = result.mapError (.map (BuildError.relabel (.under directory))))
    (hresult' : run'.result = result.mapError (.map (BuildError.relabel (.under "."))))
    (hcommands : run'.commands = run.commands)
    (hworld : run'.progress.world = run.progress.world) :
  let ended := (Host.recorded outside).conclude root run
  let ended' := (inside.withWriter.recordingIn directory).conclude root run'
  ResultAlike directory file ended.1 ended'.1 ∧ ended.2 = ended'.2
  := by
  simp only [Host.conclude, hresult, hresult', hcommands, hworld]
  cases result with
  | error stop =>
    cases stop with
    | panic => exact ⟨.panic, rfl⟩
    | failure e => exact ⟨.build e, rfl⟩
  | ok outcome =>
    simp only [Except.mapError]
    split
    · rcases hwrite : (Host.recorded outside).write run.progress.world
        (g.name root ++ " is up to date.\n") with ⟨result, after⟩
      have hwrite' : (inside.withWriter.recordingIn directory).write run.progress.world
        (g.name root ++ " is up to date.\n") = (result, after) := hwrite
      rw [hwrite']
      cases result with
      | error cause => exact ⟨.output _ cause, rfl⟩
      | ok _ => exact ⟨.success, rfl⟩
    · exact ⟨.success, rfl⟩

theorem writeGraph_alike (outside inside : System World) (directory file : String) (g : Graph)
    (state : Host.Recorded World) :
  let ended := (Host.recorded outside).writeGraph g state
  let ended' := (inside.withWriter.recordingIn directory).writeGraph g state
  ResultAlike directory file ended.1 ended'.1 ∧ ended.2 = ended'.2
  := by
  intro ended ended'
  have heq : ended' = ended := rfl
  have hdraws : (Host.recorded outside).Draws g state ended := Host.draws_writeGraph _ g state
  rw [heq]
  generalize ended = ended at hdraws
  cases hdraws with
  | unwritten => exact ⟨.output _ _, rfl⟩
  | unflushed => exact ⟨.output _ _, rfl⟩
  | drawn => exact ⟨.success, rfl⟩

/-- The same build file is loaded, or it cannot be loaded for the same reason. -/
theorem System.ResolvesAlike.loadBuildFile {limit : Nat} {world : World}
    (h : outside.ResolvesAlike inside directory limit world) (options : Options)
    (hshort : (Path.join directory options.file).utf8ByteSize ≤ limit) (writer : Writer) :
  let loaded := outside.withWriter.loadBuildFile { options with directory := some directory }
    (world, writer)
  let loaded' := inside.withWriter.loadBuildFile { options with directory := none } (world, writer)
  (∃ g, loaded = .ok g ∧ loaded' = .ok g) ∨
    ∃ e e', loaded = .error e ∧ loaded' = .error e' ∧
      ResultAlike directory options.file (.error (.failure e)) (.error (.failure e'))
  := by
  intro loaded loaded'
  have hloaded : loaded
      = if outside.isFile world (Path.join directory options.file) then
          outside.withWriter.load (world, writer) (Path.join directory options.file)
        else
          .error (.buildFileNotFound (Path.join directory options.file)
            (options.file = defaultBuildFile)) := rfl
  have hloaded' : loaded'
      = if inside.isFile world options.file then
          inside.withWriter.load (world, writer) options.file
        else
          .error (.buildFileNotFound options.file (options.file = defaultBuildFile)) := rfl
  rw [hloaded, hloaded', h.isFile options.file hshort]
  cases hfile : inside.isFile world options.file with
  | false => exact .inr ⟨_, _, rfl, rfl, .buildFileNotFound _⟩
  | true =>
    simp only [if_true, System.load, System.withWriter, h.read options.file hshort hfile,
      BuildFile.parseNamed_fst]
    cases inside.read world options.file with
    | error cause => exact .inr ⟨_, _, rfl, rfl, .unreadable cause⟩
    | ok text =>
      simp only
      cases BuildFile.parse text with
      | error e => exact .inr ⟨_, _, rfl, rfl, .buildFile e⟩
      | ok g => exact .inl ⟨g, rfl, rfl⟩

/-- Of two runs with a record, the one in the directory and the other one inside. -/
theorem run_alike (outside inside : System World) (options : Options) (directory : String)
    (limit : Nat) (world : World) (writer : Writer)
    (hrelative : Path.isAbsolute directory = false) (hempty : directory ≠ "") :
  let start : Host.Recorded World := ((world, writer), [])
  let options₁ := { options with directory := some directory }
  let options₂ := { options with directory := none }
  let ended := (Host.recorded outside).run options₁ start
  let ended' := (inside.withWriter.recordingIn directory).run options₂ start
  (∀ log, log <+: ended.2.2.filterMap Request.shell? →
      outside.ResolvesAlike inside directory limit (outside.replay world log)) →
    (Path.join directory options.file).utf8ByteSize ≤ limit →
    (∀ g, outside.withWriter.loadBuildFile options₁ (world, writer) = .ok g →
      ∀ name ∈ g.names, (Path.join directory name).utf8ByteSize ≤ limit) →
    ResultAlike directory options.file ended.1 ended'.1 ∧ ended.2 = ended'.2
  := by
  intro start options₁ options₂ ended ended' halike hfile hnames
  have hstart : outside.ResolvesAlike inside directory limit world := halike [] List.nil_prefix
  rcases hstart.loadBuildFile options hfile writer with
    ⟨g, hload, hload'⟩ | ⟨e, e', hload, hload', he⟩
  · have hloads : (Host.recorded outside).loadBuildFile options₁ start = .ok g := hload
    have hloads' : (inside.withWriter.recordingIn directory).loadBuildFile options₂ start = .ok g :=
      hload'
    cases hroot : g.root options.target with
    | error e =>
      have hended : ended = (.error (.failure (.build e)), start) :=
        Host.run_of_rootless hloads hroot
      have hended' : ended' = (.error (.failure (.build e)), start) :=
        Host.run_of_rootless hloads' hroot
      have hresult : ResultAlike directory options.file _ _ := .build e
      rw [Graph.relabel_of_root hroot, Graph.relabel_of_root hroot] at hresult
      rw [hended, hended']
      exact ⟨hresult, rfl⟩
    | ok root =>
      cases hgraph : options.graph with
      | true =>
        have hended : ended = (Host.recorded outside).writeGraph g start :=
          Host.run_of_drawn hloads hroot hgraph
        have hended' : ended' = (inside.withWriter.recordingIn directory).writeGraph g start :=
          Host.run_of_drawn hloads' hroot hgraph
        rw [hended, hended']
        apply writeGraph_alike
      | false =>
        have hended : ended = (Host.recorded outside).conclude root
            (build ((Host.recorded outside).environment directory) g (Marks.clear g) start root) :=
          Host.run_of_root hloads hroot hgraph
        have hended' : ended' = (inside.withWriter.recordingIn directory).conclude root
            (build ((inside.withWriter.recordingIn directory).environment ".") g (Marks.clear g)
              start root) :=
          Host.run_of_root hloads' hroot hgraph
        obtain ⟨text, -, hparse⟩ := (Host.loads_of_loadBuildFile hload).parse
        have hwords (node : g.Id) : g.name node ≠ "" :=
          (BuildFile.isName_name_of_parse hparse node).1
        rw [hended, Host.shells_conclude] at halike
        obtain ⟨result, hresult, hresult', hcommands, hworld⟩ :=
          exists_build_of_resolvesAlike hrelative hempty hwords (hnames g hload) halike
        rw [hended, hended']
        apply conclude_alike hresult hresult' hcommands hworld
  · have hended : ended = (.error (.failure e), start) := Host.run_of_unloaded hload
    have hended' : ended' = (.error (.failure e'), start) := Host.run_of_unloaded hload'
    rw [hended, hended']
    exact ⟨he, rfl⟩

end

/-- A run that is told to run in a directory does what a run does that is started there.

One system is the one outside of the directory, the other one inside.  If the two resolve alike in
every world that the commands of the first run lead to, and no path is too long, then both runs end
alike, and the world and the writer are the same.  And the shell is given the same commands, the one
system in the directory, the other one in its current directory. -/
theorem run_in_directory (outside inside : System World) (options : Options) (directory : String)
    (limit : Nat) (world : World) (writer : Writer)
    (hrelative : Path.isAbsolute directory = false) (hempty : directory ≠ "") :
  let start := (world, writer)
  let options₁ := { options with directory := some directory }
  let options₂ := { options with directory := none }
  let ended := outside.withWriter.run options₁ start
  let ended' := inside.withWriter.run options₂ start
  let shells := (outside.withWriter.requests options₁ start).filterMap Request.shell?
  let shells' := (inside.withWriter.requests options₂ start).filterMap Request.shell?
  (∀ log, log <+: shells →
      outside.ResolvesAlike inside directory limit (outside.replay world log)) →
    (Path.join directory options.file).utf8ByteSize ≤ limit →
    (∀ g, outside.withWriter.loadBuildFile options₁ start = .ok g →
      ∀ name ∈ g.names, (Path.join directory name).utf8ByteSize ≤ limit) →
    ResultAlike directory options.file ended.1 ended'.1 ∧ ended.2 = ended'.2 ∧
      ∃ commands : List String,
        shells = commands.map (directory, ·) ∧ shells' = commands.map (".", ·)
  := by
  intro start options₁ options₂ ended ended' shells shells' halike hfile hnames
  have hrun : (Host.recorded outside).run options₁ (start, []) = _ :=
    outside.withWriter.run_recording options₁ start
  have hrun' : (inside.withWriter.recordingIn directory).run options₂ (start, []) = _ :=
    inside.withWriter.run_recordingIn directory options₂ start
  have hends := run_alike outside inside options directory limit world writer hrelative hempty
    (by rwa [hrun]) hfile hnames
  rw [hrun, hrun', Prod.mk.injEq] at hends
  obtain ⟨hresult, hworld, hrequests⟩ := hends
  refine ⟨hresult, hworld, shells'.map Prod.snd, ?_, ?_⟩
  · simp only [shells, hrequests, Request.filterMap_shell?_within, shells', List.map_map]
    rfl
  · have hshells : shells' = _ := inside.withWriter.shells_eq options₂ start
    rw [List.map_map]
    exact hshells

/-! ### A directory to run in -/

section

open FileTree

/-- A program that is made by two commands, and is put beside the directory of its build file. -/
def Block.shop : Block :=
  ⟨"../app", [], ["cc", "ar"]⟩

theorem printable_shop :
  Printable [Block.shop]
  := by decide

/-- A file tree with a directory, in which there is the build file of the program.  Beside the
directory is the program, if it has been made. -/
def FileTree.workshop (made : Bool) : FileTree where
  entries :=
    let entries := ((∅ : Std.HashMap Place Entry).insert [] (.directory .epoch)).insert ["sub"]
      (.directory .epoch) |>.insert [defaultBuildFile, "sub"] (.file 0)
    if made then entries.insert ["app"] (.file 1) else entries
  contents :=
    ((∅ : Std.HashMap Nat Content).insert 0 ⟨(print [Block.shop]).toUTF8, .epoch⟩).insert 1
      ⟨.empty, .tick 1⟩
  fresh := 2
  numbers := ∅
  now := .epoch

/-- In the directory, the first of the commands makes the program. -/
def Kernel.workshop : Kernel Bool where
  tree := FileTree.workshop
  shell made place command := (.ok (.exited 0), made || (place = ["sub"] && command = "cc"))

namespace FileTree

theorem entries_workshop (made : Bool) :
  (workshop made).entries[([] : Place)]? = some (.directory .epoch) ∧
    (workshop made).entries[(["sub"] : Place)]? = some (.directory .epoch) ∧
    (workshop made).entries[([defaultBuildFile, "sub"] : Place)]? = some (.file 0) ∧
    (workshop made).entries[(["app"] : Place)]? = if made then some (.file 1) else none
  := by
  cases made <;>
  · simp only [workshop, if_true, Bool.false_eq_true, if_false, Std.HashMap.getElem?_insert,
      Std.HashMap.getElem?_empty]
    exact ⟨rfl, rfl, rfl, rfl⟩

theorem contents_workshop (made : Bool) :
  (workshop made).content 0 = ⟨(print [Block.shop]).toUTF8, .epoch⟩ ∧
    (workshop made).content 1 = ⟨.empty, .tick 1⟩
  := by
  simp only [content, workshop, Std.HashMap.getD_insert]
  exact ⟨rfl, rfl⟩

theorem standsAt_workshop (made : Bool) :
  (workshop made).StandsAt [] "sub" ["sub"]
  := by
  obtain ⟨hroot, hsub, -⟩ := entries_workshop made
  have hnames : namesOf "sub" = ["sub"] := by decide
  have hshort : ¬ maxNameLength < "sub".utf8ByteSize := by decide
  constructor
  case relative => decide
  case sound => decide
  case leads =>
    use .epoch
    rw [hnames]
    simp [walk, Entry.isDirectory, hroot, hsub, hshort]

theorem entryAt_file_workshop (made : Bool) :
  (workshop made).entryAt ["sub"] defaultBuildFile = .ok (.file 0)
  := by
  obtain ⟨-, hsub, hfile, -⟩ := entries_workshop made
  have hfault : pathFault? defaultBuildFile = none := by decide
  have hsteps : steps defaultBuildFile = [defaultBuildFile] := by decide
  have horigin : origin ["sub"] defaultBuildFile = ["sub"] := by decide
  have hshort : ¬ maxNameLength < defaultBuildFile.utf8ByteSize := by decide
  have hplain : defaultBuildFile ≠ "." ∧ defaultBuildFile ≠ ".." := by decide
  have hwalk : (workshop made).walk true maxLinks ["sub"] [defaultBuildFile]
      = .ok ([defaultBuildFile, "sub"], some (.file 0)) := by
    simp [walk, Entry.isDirectory, hsub, hfile, hshort, hplain]
  rw [entryAt, resolve, hfault, hsteps, horigin]
  simp only [hwalk]

theorem entryAt_app_workshop (made : Bool) :
  (workshop made).entryAt ["sub"] "../app" = if made then .ok (.file 1) else .error .notFound
  := by
  obtain ⟨hroot, hsub, -, happ⟩ := entries_workshop made
  have hfault : pathFault? "../app" = none := by decide
  have hsteps : steps "../app" = ["..", "app"] := by decide
  have horigin : origin ["sub"] "../app" = ["sub"] := by decide
  have hshort : ¬ maxNameLength < "app".utf8ByteSize := by decide
  have hwalk : (workshop made).walk true maxLinks ["sub"] ["..", "app"]
      = .ok (["app"], if made then some (.file 1) else none) := by
    cases made <;> simp_all [walk, Entry.isDirectory]
  rw [entryAt, resolve, hfault, hsteps, horigin]
  cases made <;> simp only [hwalk] <;> rfl

end FileTree

namespace Kernel

theorem resolvesAlike_workshop (made : Bool) :
  (workshop.seenFrom []).ResolvesAlike (workshop.seenFrom ["sub"]) "sub" maxPathLength made
  := resolvesAlike_seenFrom (standsAt_workshop made)

/-- The build file of the workshop is loaded from outside of its directory. -/
theorem exists_loads_workshop (options : Options) (hfile : options.file = defaultBuildFile)
    (hdirectory : options.directory = some "sub") :
  ∃ g, (workshop.seenFrom []).withWriter.Loads options (false, .unlimited) g ∧
    g.Records [Block.shop]
  := by
  obtain ⟨g, hparse⟩ :=
    BuildFile.exists_parse_iff_grammatical.2 (BuildFile.grammatical_print printable_shop)
  have hrecords := BuildFile.records_of_parse hparse
  rw [BuildFile.blocksOf_print printable_shop] at hrecords
  have hpath : options.buildFilePath = Path.join "sub" defaultBuildFile := by
    rw [Options.buildFilePath, hdirectory, hfile]
  have hshort : (Path.join "sub" defaultBuildFile).utf8ByteSize ≤ maxPathLength := by decide
  have hthere : (FileTree.workshop false).isFile ["sub"] defaultBuildFile = true := by
    rw [FileTree.isFile, entryAt_file_workshop]
  have hbytes : (FileTree.workshop false).read [] (Path.join "sub" defaultBuildFile)
      = .ok (print [Block.shop]).toUTF8 := by
    rw [(standsAt_workshop false).read_join hthere hshort, FileTree.read, entryAt_file_workshop]
    simp only [(contents_workshop false).1]
  refine ⟨g, ⟨?_, _, ?_, hparse⟩, hrecords⟩
  · rw [hpath]
    exact ((standsAt_workshop false).isFile_join hshort).trans hthere
  · rw [hpath]
    exact read_seenFrom hbytes

/-- The program has been made, or it has not, and the first command makes it. -/
def making : Environment Bool where
  modified made _ := .ok (if made then some (.tick 1) else none)
  execute made command := (.ok (), made || command = "cc")

theorem shell_workshop (made : Bool) (command : String) :
  (workshop.seenFrom []).shell made "sub" command = (.ok (.exited 0), made || command = "cc")
  := by
  have hplace : (workshop.tree made).directoryAt [] "sub" = .ok ["sub"] :=
    (standsAt_workshop made).directoryAt
  simp only [seenFrom, hplace]
  rfl

/-- In the directory of the workshop, the program is made. -/
theorem relabels_workshop :
  making.Relabels id (.single "../app" ["cc", "ar"]) ((workshop.seenFrom []).silent "sub")
  where
  modified := by
    intro made node
    have hshort : (Path.join "sub" "../app").utf8ByteSize ≤ maxPathLength := by decide
    have hstat : (workshop.seenFrom []).stat made (Path.join "sub" "../app")
        = (FileTree.workshop made).stat ["sub"] "../app" :=
      (standsAt_workshop made).stat_join (by decide) hshort
    have happ : (FileTree.workshop made).stat ["sub"] "../app"
        = if made then .ok (.tick 1) else .error .notFound := by
      rw [FileTree.stat, entryAt_app_workshop]
      cases made
      · rfl
      · simp [Except.map, FileTree.modifiedOf, (contents_workshop true).2]
    have htick : Stamp.ofFileTime? (Stamp.tick 1).secs (Stamp.tick 1).nanos = some (.tick 1) := by
      decide
    rw [Graph.name, Graph.node_single]
    simp only [System.silent, System.modified, hstat, happ, making]
    cases made
    · rfl
    · simp only [if_true, htick]
      rfl
  execute := by
    intro made command
    simp only [System.silent, shell_workshop]
    rfl

/-- The commands that make the program. -/
theorem commands_workshop {g : Graph} (hrecords : g.Records [Block.shop]) (root : g.Id) :
  (build ((workshop.seenFrom []).withWriter.environment "sub") g (Marks.clear g)
      (false, .unlimited) root).commands = ["cc", "ar"]
  := by
  rw [hrecords.commands_build, build_relabel relabels_workshop, Run.commands_relabel]
  cbv

end Kernel

/-- A run that is told to run in the directory of the workshop makes the program, and so does a run
that is started there. -/
theorem run_in_directory_workshop :
  let outside := Kernel.workshop.seenFrom []
  let inside := Kernel.workshop.seenFrom ["sub"]
  let options := { Options.default with directory := some "sub" }
  let ended := outside.withWriter.run options (false, .unlimited)
  let ended' := inside.withWriter.run .default (false, .unlimited)
  ResultAlike "sub" defaultBuildFile ended.1 ended'.1 ∧ ended.2 = ended'.2 ∧ ended.2.1 = true ∧
    (outside.withWriter.requests options (false, .unlimited)).filterMap Request.shell?
      = [("sub", "cc"), ("sub", "ar")] ∧
    (inside.withWriter.requests .default (false, .unlimited)).filterMap Request.shell?
      = [(".", "cc"), (".", "ar")]
  := by
  intro outside inside options ended ended'
  obtain ⟨g, hloads, hrecords⟩ := Kernel.exists_loads_workshop options rfl rfl
  have hnames : g.names = ["../app"] := hrecords.names
  have halike (log : List (String × String)) :
      outside.ResolvesAlike inside "sub" maxPathLength (outside.replay false log) :=
    Kernel.resolvesAlike_workshop _
  have hshort : ∀ g', outside.withWriter.loadBuildFile options (false, .unlimited) = .ok g' →
      ∀ name ∈ g'.names, (Path.join "sub" name).utf8ByteSize ≤ maxPathLength := by
    intro g' hload name hname
    cases hloads.loadBuildFile_eq.symm.trans hload
    rw [hnames] at hname
    cases List.mem_singleton.1 hname
    decide
  obtain ⟨hresult, hworld, commands, hshells, hshells'⟩ :=
    run_in_directory outside inside .default "sub" maxPathLength false .unlimited (by decide)
      (by decide) (fun log _ => halike log) (by decide) hshort
  obtain ⟨root, hroot⟩ := hloads.exists_root nofun
  have hgiven : _ = [("sub", "cc"), ("sub", "ar")] :=
    (Host.shells_of_run hloads.loadBuildFile_eq hroot rfl).trans
      (congrArg _ (Kernel.commands_workshop hrecords root))
  have hmade : ended.2.1 = true := by
    have hleft := Host.world_run outside options false .unlimited
    rw [hgiven] at hleft
    rw [hleft]
    simp [System.replay, outside, Kernel.shell_workshop]
  have hcommands : commands = ["cc", "ar"] := by
    simpa [Function.comp_def] using congrArg (List.map Prod.snd) (hshells.symm.trans hgiven)
  rw [hcommands] at hshells'
  exact ⟨hresult, hworld, hmade, hgiven, hshells'⟩

end

end IncrementalBuild
