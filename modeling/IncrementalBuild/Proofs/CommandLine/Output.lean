import IncrementalBuild.Proofs.BuildFile.Order
import IncrementalBuild.Proofs.CommandLine.Conclusion
import IncrementalBuild.Proofs.CommandLine.Limit

/-!
# The output of a run

The output of a run that builds a node is an exact record of what it did: a line for every command
it came to, and a notice if it succeeded without a command.  A run whose writer accepts a limited
number of bytes writes the first bytes of the same output, and gives the shell those commands whose
lines are accepted as a whole.
-/

namespace IncrementalBuild

variable {World : Type} {g : Graph}

namespace Host

variable {system : System World} {limit : Nat}

/-! ### The notice -/

/-- Without a limit the notice is written. -/
theorem writer_conclude {root : g.Id} {run : Run g (Recorded World)}
    (h : Accepts run.progress.world) :
  (conclude (recorded system) root run).2.1.2
    = run.progress.world.1.2.accept (noticeOf root run)
  := by
  simp only [conclude, noticeOf]
  cases run.result with
  | error e => simp
  | ok outcome =>
    simp only
    split
    · rw [write_of_accepts h]
      rfl
    · simp

/-- No shell is given a command by the notice. -/
theorem shells_conclude (system : System World) (root : g.Id) (run : Run g (Recorded World)) :
  (conclude (recorded system) root run).2.2.filterMap Request.shell?
    = run.progress.world.2.filterMap Request.shell?
  := by
  rcases world_conclude (recorded system) root run with hworld | hworld
  · rw [hworld]
  · rw [hworld]
    change (run.progress.world.2 ++ [Request.write _]).filterMap _ = _
    rw [List.filterMap_append]
    apply List.append_nil

/-- With a limit the notice is written as far as it fits, and if it does not fit this is an
error. -/
theorem conclude_limitedTo (system : System World) {root : g.Id}
    {run run' : Run g (Recorded World)} (h : Accepts run.progress.world)
    (hresult : run'.result = run.result) (hcommands : run'.commands = run.commands)
    (hworld : run'.progress.world = limitedTo limit run.progress.world)
    (hfits : run.progress.world.1.2.content.size ≤ limit) :
  let ended := conclude (recorded system) root run
  let ended' := conclude (recorded system) root run'
  ended'.2 = limitedTo limit ended.2
    ∧ (ended.2.1.2.content.size ≤ limit → ended'.1 = ended.1)
    ∧ (limit < ended.2.1.2.content.size →
        ended'.1 = .error (.failure (.output ("report " ++ g.name root) .pipeClosed)))
  := by
  simp only [conclude, hresult, hcommands, hworld]
  cases run.result with
  | error e => exact ⟨rfl, fun _ => rfl, fun hlt => absurd hfits (Nat.not_le_of_lt hlt)⟩
  | ok outcome =>
    simp only
    split
    · have hnotice : g.name root ++ " is up to date.\n" ≠ "" := by simp
      have hwrite := write_limitedTo system run.progress.world limit hnotice
      rw [write_of_accepts h, hwrite]
      refine ⟨?_, ?_, ?_⟩
      · split <;> simp_all
      · intro hle
        simp only [written, Writer.size_accept] at hle
        rw [if_pos hle]
      · intro hlt
        simp only [written, Writer.size_accept] at hlt
        rw [if_neg (Nat.not_le_of_lt hlt)]
    · exact ⟨rfl, fun _ => rfl, fun hlt => absurd hfits (Nat.not_le_of_lt hlt)⟩

/-! ### A limited output -/

/-- The state in which a run begins to write to a writer that accepts everything. -/
def fresh (world : World) : Recorded World :=
  ((world, .unlimited), [])

theorem accepts_fresh (world : World) :
  Accepts (fresh world)
  := ⟨rfl, rfl⟩

theorem limitedTo_fresh (limit : Nat) (world : World) :
  limitedTo limit (fresh world) = ((world, ⟨.empty, some limit, false⟩), [])
  := by
  have hempty : ByteArray.empty.extract 0 limit = .empty :=
    extract_of_size_le (Nat.zero_le limit)
  simp only [limitedTo, fresh, Writer.limitedTo, Writer.unlimited, hempty]

/-- The lines of the first commands fit as long as no more of them are taken than fit. -/
theorem le_iff_echoOf_le {commands : List String} {count n : Nat}
    (hfits : (echoOf (commands.take count)).utf8ByteSize ≤ limit)
    (hfull : count < commands.length →
      limit < (echoOf (commands.take (count + 1))).utf8ByteSize) (hn : n ≤ commands.length) :
  n ≤ count ↔ (echoOf (commands.take n)).utf8ByteSize ≤ limit
  := by
  constructor
  · intro hle
    exact (utf8ByteSize_echoOf_le (List.take_prefix_take_left hle)).trans hfits
  · intro hle
    by_contra hlt
    have hsize := utf8ByteSize_echoOf_le (List.take_prefix_take_left
      (Nat.succ_le_of_lt (Nat.lt_of_not_le hlt)) : commands.take (count + 1) <+: commands.take n)
    have hmore := hfull (by omega)
    omega

end Host

/-- A run failed because its output was cut off: in the line of a command, or in the notice that
a root is up to date. -/
inductive RunError.IsCutOff (root : String) : RunError → Prop
  | echo (command : String) : IsCutOff root (.build (.command (.echo command .pipeClosed)))
  | report : IsCutOff root (.output ("report " ++ root) .pipeClosed)

namespace Host

variable {system : System World} {world : World} {directory : String} {root : g.Id}
  {limit : Nat}

/-- How a run with a limited output ends, and what it has asked for, beside the run without a limit,
which comes to some commands and ends with the given output and result. -/
structure Truncates (directory : String) (limit : Nat) (root : String) (commands : List String)
    (output : ByteArray) (result : Except (Stop RunError) Unit)
    (ended : Except (Stop RunError) Unit × World × Writer) (requests : List Request) : Prop where
  /-- The first bytes of the output are written. -/
  content : ended.2.2.content = output.extract 0 limit
  /-- The shell is given those commands whose lines fit. -/
  shells : ∃ count ≤ commands.length,
    requests.filterMap Request.shell? = (commands.take count).map (directory, ·) ∧
      ∀ n ≤ commands.length, n ≤ count ↔ (echoOf (commands.take n)).utf8ByteSize ≤ limit
  same : output.size ≤ limit → ended.1 = result
  cutOff : limit < output.size → ∃ e : RunError, ended.1 = .error (.failure e) ∧ e.IsCutOff root

/-- What a build without a limit has written and asked for. -/
theorem recorded_build (system : System World) (directory : String) (root : g.Id)
    (world : World) :
  let run := build ((recorded system).environment directory) g (Marks.clear g) (fresh world) root
  Accepts run.progress.world ∧
    run.progress.world.1.2.content = (echoOf run.commands).toUTF8 ∧
    run.progress.world.2 = run.commands.flatMap (Request.ofCommand directory)
  := by
  intro run
  obtain ⟨hwriter, hrequests⟩ := after_of_accepts system (accepts_fresh world) directory
    run.commands
  rw [← world_of_build] at hwriter hrequests
  refine ⟨?_, ?_, hrequests⟩
  · constructor
    · rw [hwriter]
      rfl
    · rw [hwriter]
      rfl
  · rw [hwriter]
    apply ByteArray.empty_append

/-- The output of a build without a limit. -/
theorem content_conclude (system : System World) (directory : String) (root : g.Id)
    (world : World) :
  let run := build ((recorded system).environment directory) g (Marks.clear g) (fresh world) root
  (conclude (recorded system) root run).2.1.2.content
    = (echoOf run.commands ++ noticeOf root run).toUTF8
  := by
  intro run
  obtain ⟨haccepts, hcontent, -⟩ := recorded_build system directory root world
  rw [writer_conclude haccepts, Writer.accept, hcontent]
  exact String.toByteArray_append.symm

/-- If every line fits, it remains to be seen whether the notice does. -/
theorem truncates_of_fits {run' : Run g (Recorded World)} (system : System World)
    (directory : String) (root : g.Id) (world : World) (limit : Nat) :
  let run := build ((recorded system).environment directory) g (Marks.clear g) (fresh world) root
  let ended' := conclude (recorded system) root run'
  run'.result = run.result → run'.commands = run.commands →
    run'.progress.world = limitedTo limit run.progress.world →
    (echoOf run.commands).utf8ByteSize ≤ limit →
    Truncates directory limit (g.name root) run.commands
      (echoOf run.commands ++ noticeOf root run).toUTF8 (conclude (recorded system) root run).1
      (ended'.1, ended'.2.1) ended'.2.2
  := by
  intro run ended' hresult hcommands hworld hfits
  obtain ⟨haccepts, hwritten, hrequests⟩ := recorded_build system directory root world
  have hcontent : (conclude (recorded system) root run).2.1.2.content = _ :=
    content_conclude system directory root world
  have hsize : run.progress.world.1.2.content.size ≤ limit := by
    rw [hwritten]
    apply hfits
  obtain ⟨hstate, hsame, hcut⟩ :=
    conclude_limitedTo system haccepts hresult hcommands hworld hsize
  rw [← hcontent]
  constructor
  case content =>
    rw [hstate]
    rfl
  case shells =>
    refine ⟨run.commands.length, Nat.le_refl _, ?_, fun n hn => ?_⟩
    · rw [hstate, List.take_length, ← filterMap_shell?_ofCommand, ← hrequests]
      apply shells_conclude
    · apply le_iff_echoOf_le _ (fun hlt => absurd hlt (Nat.lt_irrefl _)) hn
      rwa [List.take_length]
  case same => exact hsame
  case cutOff => exact fun hlt => ⟨_, hcut hlt, .report⟩

/-- If a line does not fit, the output is cut off there. -/
theorem truncates_of_overflow {run' : Run g (Recorded World)} {commands before : List String}
    {command rest : String} (result : Except (Stop RunError) Unit)
    (hbegins : before ++ [command] <+: commands)
    (hresult : run'.result = .error (.failure (.command (.echo command .pipeClosed))))
    (hworld : run'.progress.world = limitedTo limit
      (written (((recorded system).environment directory).after (fresh world) before)
        (command ++ "\n")))
    (hfits : (echoOf before).utf8ByteSize ≤ limit)
    (hfull : limit < (echoOf (before ++ [command])).utf8ByteSize) :
  let ended' := conclude (recorded system) root run'
  Truncates directory limit (g.name root) commands (echoOf commands ++ rest).toUTF8 result
    (ended'.1, ended'.2.1) ended'.2.2
  := by
  intro ended'
  have hconclude : ended'
      = (.error (.failure (.build (.command (.echo command .pipeClosed)))),
        run'.progress.world) := by
    simp only [ended', conclude, hresult, Stop.map_failure]
  obtain ⟨hwriter, hasked⟩ := after_of_accepts system (accepts_fresh world) directory before
  obtain ⟨later, rfl⟩ := hbegins
  have hcut : limit < (echoOf (before ++ [command] ++ later) ++ rest).utf8ByteSize := by
    rw [echoOf_append, String.utf8ByteSize_append, String.utf8ByteSize_append]
    omega
  constructor
  case content =>
    rw [extract_echoOf_append _ later rest (Nat.le_of_lt hfull), hconclude, hworld, limitedTo,
      written, hwriter, Writer.accept_accept, echoOf_append, echoOf_singleton]
    change (ByteArray.empty ++ _).extract 0 limit = _
    rw [ByteArray.empty_append]
  case shells =>
    have htake : (before ++ [command] ++ later).take before.length = before := by simp
    have hnext : (before ++ [command] ++ later).take (before.length + 1) = before ++ [command] := by
      apply List.take_left'
      simp
    refine ⟨before.length, by simp, ?_, fun n hn => ?_⟩
    · rw [hconclude, hworld, htake, ← filterMap_shell?_ofCommand]
      change (_ ++ [Request.write _]).filterMap _ = _
      rw [hasked, List.filterMap_append]
      apply List.append_nil
    · apply le_iff_echoOf_le _ _ hn
      · rwa [htake]
      · intro _
        rwa [hnext]
  case same => exact fun hle => absurd hcut (Nat.not_lt_of_le hle)
  case cutOff =>
    rw [hconclude]
    exact fun _ => ⟨_, rfl, .echo command⟩

/-- A build with a limited output, beside the one without a limit. -/
theorem truncates_conclude (system : System World) (directory : String) (root : g.Id)
    (world : World) (limit : Nat) :
  let env := (recorded system).environment directory
  let run := build env g (Marks.clear g) (fresh world) root
  let run' := build env g (Marks.clear g) (limitedTo limit (fresh world)) root
  let ended' := conclude (recorded system) root run'
  Truncates directory limit (g.name root) run.commands
    (echoOf run.commands ++ noticeOf root run).toUTF8 (conclude (recorded system) root run).1
    (ended'.1, ended'.2.1) ended'.2.2
  := by
  intro env run run' ended'
  have hempty : (fresh world).1.2.content.size = 0 := rfl
  have hlimit : (fresh world).1.2.content.size ≤ limit := Nat.zero_le limit
  rcases build_limitedTo system (accepts_fresh world) hlimit directory root with
    ⟨hresult, hcommands, hworld, hfits⟩ | ⟨before, command, hbegins, hresult, hworld, hfits, hfull⟩
  · rw [hempty, Nat.zero_add] at hfits
    apply truncates_of_fits system directory root world limit hresult hcommands hworld hfits
  · rw [hempty, Nat.zero_add] at hfits hfull
    apply truncates_of_overflow _ hbegins hresult hworld hfits hfull

/-! ### Runs -/

/-- A run that comes to building a node, and what it asks for. -/
theorem run_and_requests {options : Options}
    (hload : system.withWriter.loadBuildFile options (world, .unlimited) = .ok g)
    (hroot : g.root options.target = .ok root) (hgraph : options.graph = false)
    (writer : Writer) :
  let env := (recorded system).environment options.workingDirectory
  let ended := conclude (recorded system) root
    (build env g (Marks.clear g) ((world, writer), []) root)
  system.withWriter.run options (world, writer) = (ended.1, ended.2.1)
    ∧ system.withWriter.requests options (world, writer) = ended.2.2
  := by
  intro env ended
  have hloaded : (recorded system).loadBuildFile options ((world, writer), []) = .ok g := hload
  have hended : (recorded system).run options ((world, writer), []) = ended :=
    run_of_root hloaded hroot hgraph
  have hrecording := run_recording system.withWriter options (world, writer)
  have hrun : (recorded system).run options ((world, writer), []) = _ := hrecording
  rw [hended] at hrun
  rw [hrun]
  exact ⟨rfl, rfl⟩

/-- A record does not change what a build comes to. -/
theorem recorded_alike (system : System World) (directory : String) (root : g.Id)
    (world : World) :
  let run := build (system.withWriter.environment directory) g (Marks.clear g) (world, .unlimited)
    root
  let run' := build ((recorded system).environment directory) g (Marks.clear g) (fresh world) root
  run.commands = run'.commands ∧ noticeOf root run = noticeOf root run'
  := by
  intro run run'
  have halike : Run.Alike Eq _ run run' :=
    build_alike (.refl g) ((alike_recording system.withWriter).environment directory)
      (fun hab => hab ▸ rfl) rfl rfl
  have hcommands : run.commands = run'.commands := halike.progress.commands
  exact ⟨hcommands, by simp only [noticeOf, halike.result, hcommands]⟩

/-- The shell is given every command of a build if everything that is written is accepted. -/
theorem shells_of_run {options : Options}
    (hload : system.withWriter.loadBuildFile options (world, .unlimited) = .ok g)
    (hroot : g.root options.target = .ok root) (hgraph : options.graph = false) :
  (system.withWriter.requests options (world, .unlimited)).filterMap Request.shell?
    = (build (system.withWriter.environment options.workingDirectory) g (Marks.clear g)
        (world, .unlimited) root).commands.map (options.workingDirectory, ·)
  := by
  have hrequests := (run_and_requests hload hroot hgraph .unlimited).2
  obtain ⟨-, -, hrecord⟩ := recorded_build system options.workingDirectory root world
  rw [hrequests, shells_conclude, (recorded_alike system _ root world).1,
    ← filterMap_shell?_ofCommand, ← hrecord]
  rfl

end Host

/-- The output of a run is an exact record of what it did.

If the build file can be loaded, the graph is not to be drawn and a root is found, and everything
that is written is accepted, then the output is a line for every command the build comes to,
followed by the notice that the root is up to date if the build succeeded without a command.  With
a limit, the run writes the first bytes of that output, gives the shell the commands whose lines
fit, and has the same result unless something is cut off.  And if the output cannot be flushed, the
shell is given no command. -/
theorem output_of_run (system : System World) {options : Options} {world : World} {root : g.Id}
    (hload : system.withWriter.loadBuildFile options (world, .unlimited) = .ok g)
    (hroot : g.root options.target = .ok root) (hgraph : options.graph = false) :
  let host := system.withWriter
  let directory := options.workingDirectory
  let run := build (host.environment directory) g (Marks.clear g) (world, .unlimited) root
  let output := (echoOf run.commands ++ Host.noticeOf root run).toUTF8
  let unlimited := host.run options (world, .unlimited)
  unlimited.2.2.content = output ∧
    (∀ limit, let limited : Writer := ⟨.empty, some limit, false⟩
      Host.Truncates directory limit (g.name root) run.commands output unlimited.1
        (host.run options (world, limited)) (host.requests options (world, limited))) ∧
    ∀ writer : Writer, writer.flushFails = true →
      (host.requests options (world, writer)).filterMap Request.shell? = []
  := by
  intro host directory run output unlimited
  have hended := Host.run_and_requests hload hroot hgraph
  obtain ⟨hcommands, hnotice⟩ := Host.recorded_alike system directory root world
  change run.commands = _ at hcommands
  change Host.noticeOf root run = _ at hnotice
  simp only [unlimited, output, hcommands, hnotice]
  refine ⟨?_, fun limit => ?_, fun writer hfails => ?_⟩
  · rw [(hended .unlimited).1]
    apply Host.content_conclude
  · have htruncates := Host.truncates_conclude system directory root world limit
    rw [Host.limitedTo_fresh] at htruncates
    rw [(hended .unlimited).1, (hended _).1, (hended _).2]
    exact htruncates
  · rw [(hended writer).2, Host.shells_conclude, world_of_build]
    have hstart : ((world, writer), ([] : List Request)).1.2.flushFails = true := hfails
    exact (Host.after_of_flushFails system hstart _ _).2

/-! ### An output that is cut off -/

/-- A program that is made by two commands. -/
def Block.tool : Block :=
  ⟨"app", [], ["cc", "ar"]⟩

theorem printable_tool :
  Printable [Block.tool]
  := by decide

theorem Graph.index_empty (name : String) :
  Graph.empty.index[name]? = none
  := by simp [Graph.empty]

/-- The graph of a program that is made from nothing. -/
def Graph.single (name : String) (commands : List String) : Graph :=
  (Graph.empty.pushNode name (index_empty name)).withRule ⟨0, Nat.one_pos⟩ [] commands

/-- The program. -/
def Graph.singleRoot {name : String} {commands : List String} : (Graph.single name commands).Id :=
  ⟨0, Nat.one_pos⟩

/-- The system of the build file of the program. -/
def Host.tool : Host (Unit × Writer) :=
  (System.ofText (print [Block.tool])).withWriter

section

variable {name : String} {commands : List String}

theorem Graph.node_single (id : (Graph.single name commands).Id) :
  (Graph.single name commands).node id = ⟨name, true, #[], commands.toArray⟩
  := by
  obtain ⟨_ | n, hn⟩ := id
  · rfl
  · cases Nat.not_lt_zero n (Nat.lt_of_succ_lt_succ hn)

theorem Graph.Records.node_single (h : g.Records [⟨name, [], commands⟩]) (id : g.Id) :
  g.node id = ⟨name, true, #[], commands.toArray⟩
  := by
  have hnode : g.nodes[id.val]? = some (g.node id) := Array.getElem?_eq_getElem (g.id_lt_size id)
  have hname : (g.node id).name = name := by
    have hmem := g.name_mem_names id
    rw [h.names] at hmem
    exact List.mem_singleton.1 hmem
  have hrealizes := h.realizes_of_hasName (List.mem_singleton_self _) hnode hname
  generalize g.node id = node at hname hrealizes
  obtain ⟨-, hdeclared, hdependencies, hcommands⟩ := hrealizes
  obtain ⟨_, declared, ⟨dependencies⟩, ⟨_⟩⟩ := node
  cases hname
  cases hdeclared
  cases hdependencies
  cases hcommands
  rfl

/-- Whatever is read from the build file is like the graph of the program. -/
theorem Graph.Records.alike_single (h : g.Records [⟨name, [], commands⟩]) :
  Graph.Alike g (Graph.single name commands) fun _ _ => True
  := by
  constructor
  case name => simp only [Graph.name, h.node_single, Graph.node_single, implies_true]
  case declared => simp only [h.node_single, Graph.node_single, implies_true]
  case commands => simp only [h.node_single, Graph.node_single, implies_true]
  case dependencies =>
    intro a b _
    have hleft : g.dependencies a = [] := by
      rw [← List.map_eq_nil_iff, g.map_val_dependencies, h.node_single]
    have hright : (Graph.single name commands).dependencies b = [] := by
      rw [← List.map_eq_nil_iff, Graph.map_val_dependencies, Graph.node_single]
    rw [hleft, hright]
    exact .nil

/-- The environment of a directory in which commands are not announced. -/
def System.silent (system : System World) (directory : String) : Environment World where
  modified := system.modified directory
  execute world command :=
    (Host.answerOf command (system.shell world directory command).1,
      (system.shell world directory command).2)

/-- As long as everything that is written is accepted, a build goes as if nothing had to be
written. -/
theorem Host.alike_silent (system : System World) (directory : String) :
  Environment.Alike (system.withWriter.environment directory) (system.silent directory)
    fun state world => state.1 = world ∧ state.2.limit = none ∧ state.2.flushFails = false
  where
  modified := by
    rintro state _ ⟨rfl, -, -⟩
    rfl
  execute := by
    rintro state _ command ⟨rfl, hlimit, hflush⟩
    have hwrite : system.withWriter.write state (command ++ "\n")
        = (.ok (), (state.1, state.2.accept (command ++ "\n"))) := by
      simp only [System.withWriter, Writer.write_of_unlimited hlimit]
    have hflushed : system.withWriter.flush (state.1, state.2.accept (command ++ "\n"))
        = (.ok (), (state.1, state.2.accept (command ++ "\n"))) := by
      simp [System.withWriter, Writer.flush, Writer.accept, hflush]
    have hexecute := Host.execute_of_flush directory hwrite hflushed
    simp only [Host.environment, hexecute]
    exact .intro ⟨rfl, hlimit, hflush⟩

/-- The commands of the build of a program whose build file has been read. -/
theorem Graph.Records.commands_build (h : g.Records [⟨name, [], commands⟩])
    (system : System World) (directory : String) (world : World) (root : g.Id) :
  (build (system.withWriter.environment directory) g (Marks.clear g) (world, .unlimited)
      root).commands
    = (build (system.silent directory) (Graph.single name commands) (Marks.clear _) world
        Graph.singleRoot).commands
  := by
  have hmarks (a : g.Id) (b : (Graph.single name commands).Id) :
      (Marks.clear g).mark a = (Marks.clear (Graph.single name commands)).mark b := by
    rw [Marks.mark_clear, Marks.mark_clear]
  exact (build_alike h.alike_single (Host.alike_silent system directory) (fun _ => hmarks _ _)
    ⟨rfl, rfl, rfl⟩ trivial).progress.commands

end

/-- The build file of the program is read, and the build gives both commands. -/
theorem exists_build_tool :
  ∃ (g : Graph) (root : g.Id), Host.tool.loadBuildFile .default ((), .unlimited) = .ok g ∧
    g.root Options.default.target = .ok root ∧ g.name root = "app" ∧
    let run := build (Host.tool.environment ".") g (Marks.clear g) ((), .unlimited) root
    run.commands = ["cc", "ar"] ∧ Host.noticeOf root run = ""
  := by
  obtain ⟨g, hparse⟩ :=
    BuildFile.exists_parse_iff_grammatical.2 (BuildFile.grammatical_print printable_tool)
  have hrecords := BuildFile.records_of_parse hparse
  rw [BuildFile.blocksOf_print printable_tool] at hrecords
  have hloads : Host.tool.Loads .default ((), .unlimited) g := ⟨rfl, _, rfl, hparse⟩
  obtain ⟨root, hroot⟩ := hloads.exists_root nofun
  refine ⟨g, root, hloads.loadBuildFile_eq, hroot, by rw [Graph.name, hrecords.node_single], ?_⟩
  intro run
  have hsilent : (System.ofText (print [Block.tool])).silent "."
      = ⟨fun _ _ => .ok none, fun _ _ => (.ok (), ())⟩ := rfl
  have hcommands : run.commands = ["cc", "ar"] := by
    refine (hrecords.commands_build _ "." () root).trans ?_
    rw [hsilent]
    cbv
  refine ⟨hcommands, ?_⟩
  unfold Host.noticeOf
  rw [hcommands]
  cases run.result <;> rfl

/-- Four bytes are enough for the first line and the first letter of the second, and so only the
first of two commands is given to the shell. -/
theorem output_of_run_tool :
  let limited : Writer := ⟨.empty, some 4, false⟩
  let unflushable : Writer := ⟨.empty, none, true⟩
  (Host.tool.run .default ((), .unlimited)).2.2.content = "cc\nar\n".toUTF8 ∧
    (Host.tool.run .default ((), limited)).2.2.content = "cc\na".toUTF8 ∧
    (Host.tool.requests .default ((), limited)).filterMap Request.shell? = [(".", "cc")] ∧
    (∃ e, (Host.tool.run .default ((), limited)).1 = .error (.failure e) ∧ e.IsCutOff "app") ∧
    (Host.tool.requests .default ((), unflushable)).filterMap Request.shell? = []
  := by
  obtain ⟨g, root, hload, hroot, hname, hcommands, hnotice⟩ := exists_build_tool
  have hrecord := output_of_run (System.ofText (print [Block.tool])) hload hroot rfl
  have hdirectory : Options.default.workingDirectory = "." := rfl
  have htool : (System.ofText (print [Block.tool])).withWriter = Host.tool := rfl
  simp only [hdirectory, htool, hcommands, hnotice, hname] at hrecord
  obtain ⟨hcontent, hlimited, hunflushable⟩ := hrecord
  obtain ⟨hbegins, ⟨count, hle, hshells, hcount⟩, -, hcut⟩ := hlimited 4
  have hone : 1 ≤ count := (hcount 1 (by decide)).2 (by decide)
  have htwo : ¬ 2 ≤ count := mt (hcount 2 (by decide)).1 (by decide)
  obtain rfl : count = 1 := by omega
  exact ⟨hcontent, hbegins, hshells, hcut (by decide), hunflushable _ rfl⟩

end IncrementalBuild
