import IncrementalBuild.Proofs.Walk.Ledger

/-!
# How a build fails

Once its survey has met no error, a build ends with an error in one of three ways: a command
fails, the file of a node cannot be looked at, or a node that is neither declared nor there is
come to.  `Walk.Blamed` says what is then the case in the world the build has led to.  There
is no cycle among the ways, since the survey has met none, whatever the commands do.  And a
prerequisite is missing only if a command has taken away its file, since the survey has
found it: `Environment.Spares` says of commands that they do not.
-/

namespace IncrementalBuild

variable {g : Graph} {World : Type}

/-! ### How an operation on a node fails -/

namespace Progress

variable {env : Environment World} {node : g.Id} {p q : Progress g World} {e : Stop BuildError}

/-- How a node cannot be entered: its file cannot be looked at, or it is neither declared nor
there. -/
inductive EnterFailure (env : Environment World) (parent? : Option g.Id) (node : g.Id)
    (p : Progress g World) : Stop BuildError → Prop
  | unreadable {cause : Stop StatError} :
    env.modified p.world (g.name node) = .error cause →
      EnterFailure env parent? node p (cause.map .stat)
  | missing :
    (g.node node).declared = false → env.modified p.world (g.name node) = .ok none →
      EnterFailure env parent? node p
        (.failure (.missingPrerequisite (g.name node) ((parent?.map g.name).getD "")))

theorem enterFailure_of_enter {parent? : Option g.Id}
    (h : p.enter env parent? node = (.error e, q)) :
  EnterFailure env parent? node p e ∧ q.world = p.world ∧ q.commands = p.commands
  := by
  unfold enter look at h
  cases hfile : env.modified p.world (g.name node) with
  | error cause =>
    rw [hfile] at h
    cases h
    exact ⟨.unreadable hfile, rfl, by simp [commands, record, Action.command?]⟩
  | ok found =>
    rw [hfile] at h
    cases found with
    | some time => simp at h
    | none =>
      by_cases hdeclared : (g.node node).declared = true
      · simp [hdeclared] at h
      · simp only [Option.isSome_none, Bool.false_eq_true, if_false, hdeclared] at h
        cases h
        exact ⟨.missing (Bool.not_eq_true _ ▸ hdeclared) hfile, rfl,
          by simp [commands, mark, record, Action.command?]⟩

/-- The commands `earlier` of a node have been run, and the command after them has failed. -/
structure Broken (env : Environment World) (node : g.Id) (earlier : List String)
    (command : String) (cause : CommandError) (p q : Progress g World) : Prop where
  execute : env.execute (env.after p.world earlier) command = (.error cause, q.world)
  marks : q.marks = p.marks
  trace : q.trace.toList = p.trace.toList ++ (earlier ++ [command]).map (.issued node)

theorem broken_of_execute {commands : List String}
    (h : execute env node commands p = (.error e, q)) :
  ∃ earlier command later cause, commands = earlier ++ command :: later ∧
    e = .failure (.command cause) ∧ Broken env node earlier command cause p q
  := by
  induction commands generalizing p with
  | nil => simp [Progress.execute] at h
  | cons command rest ih =>
    simp only [Progress.execute] at h
    split at h
    · next cause world hexecute =>
      cases h
      exact ⟨[], command, rest, cause, rfl, rfl, hexecute, rfl, by simp [record]⟩
    · next world hexecute =>
      obtain ⟨earlier, failing, later, cause, rfl, rfl, hbroken⟩ := ih h
      refine ⟨command :: earlier, failing, later, cause, rfl, rfl, ?_, hbroken.marks, ?_⟩
      · have hstep : env.execute p.world command = (.ok (), world) := hexecute
        simpa [Environment.after, hstep] using hbroken.execute
      · simp [hbroken.trace, record]

theorem Broken.commands {earlier : List String} {command : String} {cause : CommandError}
    (h : Broken env node earlier command cause p q) :
  q.commands = p.commands ++ (earlier ++ [command])
  := by rw [Progress.commands, h.trace, List.filterMap_append, filterMap_issued, Progress.commands]

/-- How a node that has to be built cannot be finished: a command fails, or all of them are run
and the file cannot be looked at after that. -/
inductive FinishFailure (env : Environment World) (node : g.Id) (p q : Progress g World) :
    Stop BuildError → Prop
  | command {earlier later : List String} {command : String} {cause : CommandError} :
    g.commands node = earlier ++ command :: later → Broken env node earlier command cause p q →
      FinishFailure env node p q (.failure (.command cause))
  | unreadable {cause : Stop StatError} :
    q.world = env.after p.world (g.commands node) →
      q.commands = p.commands ++ g.commands node →
      env.modified q.world (g.name node) = .error cause →
      FinishFailure env node p q (cause.map .stat)

theorem finishFailure_of_finish (h : p.finish env node = (.error e, q)) :
  (p.marks.mark node).mustBuild = true ∧ FinishFailure env node p q e
  := by
  unfold finish at h
  split at h
  · next hmust =>
    use hmust
    split at h
    · next hexecute =>
      cases h
      obtain ⟨earlier, command, later, cause, hsplit, rfl, hbroken⟩ := broken_of_execute hexecute
      exact .command hsplit hbroken
    · next mid hexecute =>
      obtain ⟨-, -, hworld, -, htrace⟩ := execute_of_ok hexecute
      cases hfile : env.modified mid.world (g.name node) with
      | ok found => simp [settle_of_ok hfile] at h
      | error cause =>
        rw [settle_of_error hfile] at h
        cases h
        have hcommands : mid.commands = p.commands ++ g.commands node := by
          rw [commands, htrace, List.filterMap_append, filterMap_issued, commands, Graph.commands]
        refine .unreadable hworld ?_ hfile
        rw [← hcommands]
        simp [commands, record, Action.command?]
  · simp at h

end Progress

/-! ### The way to the node on top -/

namespace Walk

variable {env : Environment World} {root : g.Id} {final order : List g.Id} {walk : Walk g World}

/-- The path leads from the root to the node on top, and what a node has yet to deal with are
dependencies of it. -/
structure Way (root : g.Id) (walk : Walk g World) : Prop where
  chain : walk.path.IsChain fun node above => g.Needs above node
  root_eq : ∀ last ∈ walk.path.getLast?, last = root
  needs : ∀ task ∈ walk.tasks, ∀ dependency ∈ task.2, g.Needs task.1 dependency

theorem way_start (root : g.Id) (p : Progress g World) :
  Way root ⟨[frame g root], p⟩
  := by constructor <;> simp [path, tasks, frame, Graph.Needs]

namespace Way

theorem paid (h : Way root walk) :
  Way root walk.paid
  := ⟨by simpa using h.chain, by simpa using h.root_eq, by simpa using h.needs⟩

/-- Every move of the loop keeps the way. -/
theorem move {next : Walk g World} (h : Way root walk) (hmove : Move env walk next) :
  Way root next
  := by
  obtain ⟨hchain, hroot, hneeds⟩ := h
  cases hmove with
  | pass _ =>
    simp only [tasks, List.map_cons, List.forall_mem_cons] at hneeds
    refine ⟨hchain, hroot, ?_⟩
    simpa [tasks] using And.intro hneeds.1.2 hneeds.2
  | descend _ _ =>
    simp only [tasks, List.map_cons, List.forall_mem_cons] at hneeds
    refine ⟨List.isChain_cons_cons.2 ⟨hneeds.1.1, hchain⟩, ?_, ?_⟩
    · simpa [path, frame, List.getLast?_cons] using hroot
    · simpa [tasks, frame, Graph.Needs] using And.intro hneeds.1.2 hneeds.2
  | @leave _ below _ _ _ =>
    refine ⟨hchain.tail, ?_, fun task htask => hneeds task (List.mem_cons_of_mem _ htask)⟩
    cases below with
    | nil => simp [path]
    | cons next below => simpa [path, List.getLast?_cons] using hroot

end Way

theorem kept_way (env : Environment World) (root : g.Id) (final : List g.Id) :
  Kept env final fun _ walk => Way root walk
  where
  paid _ h := h.paid
  turn hfollows h hturn := h.move (hfollows.move_of_turn hturn)

/-- The root reaches the nodes on the way. -/
theorem Follows.reaches_of_mem_path (hpost : g.PostOrderOf root final)
    (h : Follows final order walk) {node : g.Id} (hmem : node ∈ walk.path) :
  g.Reaches root node
  := by
  obtain ⟨added, rfl, hsub⟩ := h.completes.exists_append
  apply hpost.mem_iff.1
  apply List.mem_append_right _ (hsub.subset _)
  simpa [path, tasks, Function.comp_def] using hmem

/-- The root reaches the dependencies that the node on top has yet to deal with. -/
theorem Follows.reaches_of_mem_pending (hpost : g.PostOrderOf root final)
    {frame : Frame g} {below : List (Frame g)} {p : Progress g World} {dependency : g.Id}
    (h : Follows final order ⟨frame :: below, p⟩) (hmem : dependency ∈ frame.pending) :
  g.Reaches root dependency
  := hpost.mem_iff.1 (Graph.Completes.mem_of_mem_pending h.completes hmem)

/-- The root reaches the nodes left behind. -/
theorem Follows.reaches_of_mem_order (hpost : g.PostOrderOf root final)
    (h : Follows final order walk) {node : g.Id} (hmem : node ∈ order) :
  g.Reaches root node
  := by
  obtain ⟨added, rfl, -⟩ := h.completes.exists_append
  exact hpost.mem_iff.1 (List.mem_append_left _ hmem)

/-- The root reaches the nodes visited. -/
theorem Follows.reaches_of_visit (hpost : g.PostOrderOf root final)
    (h : Follows final order walk) {node : g.Id}
    (hvisit : (walk.progress.marks.mark node).visit ≠ .unvisited) :
  g.Reaches root node
  := by
  cases hcases : (walk.progress.marks.mark node).visit with
  | unvisited => exact absurd hcases hvisit
  | inProgress => exact h.reaches_of_mem_path hpost ((h.inProgress_iff node).1 hcases)
  | done => exact h.reaches_of_mem_order hpost ((h.done_iff node).1 hcases)

/-! ### What a build is ended by -/

/-- What is the case in the world in which a walk from the root has stopped early. -/
inductive Blamed (env : Environment World) (root : g.Id) (world : World) :
    Stop BuildError → Prop
  | command {cause : CommandError} : Blamed env root world (.failure (.command cause))
  | unreadable {node : g.Id} {cause : StatError} :
    g.Reaches root node → env.modified world (g.name node) = .error (.failure cause) →
      Blamed env root world (.failure (.stat cause))
  | panic {node : g.Id} :
    g.Reaches root node → env.modified world (g.name node) = .error .panic →
      Blamed env root world .panic
  | missing {node : g.Id} {neededBy : String} :
    g.Reaches root node → (g.node node).declared = false →
      env.modified world (g.name node) = .ok none →
      Blamed env root world (.failure (.missingPrerequisite (g.name node) neededBy))

theorem blamed_of_unreadable {node : g.Id} {world : World} (hreaches : g.Reaches root node)
    {cause : Stop StatError} (hfile : env.modified world (g.name node) = .error cause) :
  Blamed env root world (cause.map .stat)
  := by
  cases cause with
  | failure cause => exact .unreadable hreaches hfile
  | panic => exact .panic hreaches hfile

theorem blamed_of_enter {parent? : Option g.Id} {node : g.Id} {p q : Progress g World}
    {e : Stop BuildError} (hreaches : g.Reaches root node)
    (h : p.enter env parent? node = (.error e, q)) :
  Blamed env root q.world e
  := by
  obtain ⟨hfailure, hworld, -⟩ := Progress.enterFailure_of_enter h
  rw [hworld]
  cases hfailure with
  | unreadable hfile => exact blamed_of_unreadable hreaches hfile
  | missing hdeclared hfile => exact .missing hreaches hdeclared hfile

theorem blamed_of_finish {node : g.Id} {p q : Progress g World} {e : Stop BuildError}
    (hreaches : g.Reaches root node) (h : p.finish env node = (.error e, q)) :
  Blamed env root q.world e
  := by
  obtain ⟨-, hfailure⟩ := Progress.finishFailure_of_finish h
  cases hfailure with
  | command _ _ => exact .command
  | unreadable _ _ hfile => exact blamed_of_unreadable hreaches hfile

theorem Failure.blamed {e : Stop BuildError} {q : Progress g World}
    (hpost : g.PostOrderOf root final)
    (hfollows : Follows final order walk) (h : Failure env walk e q) :
  Blamed env root q.world e
  := by
  cases h with
  | enter _ henter =>
    exact blamed_of_enter (hfollows.reaches_of_mem_pending hpost List.mem_cons_self) henter
  | finish hfinish =>
    exact blamed_of_finish (hfollows.reaches_of_mem_path hpost List.mem_cons_self) hfinish

/-- A walk that fails has ended in the world that its commands have led to. -/
theorem Failure.world_eq {world : World} {e : Stop BuildError} {q : Progress g World}
    (hbooked : Progress.Booked env world order walk.progress) (h : Failure env walk e q) :
  q.world = env.after world q.commands
  := by
  cases h with
  | enter _ henter =>
    obtain ⟨-, hworld, hcommands⟩ := Progress.enterFailure_of_enter henter
    rw [hworld, hcommands, hbooked.reached]
  | finish hfinish =>
    obtain ⟨-, hfailure⟩ := Progress.finishFailure_of_finish hfinish
    cases hfailure with
    | @command earlier _ command _ _ hbroken =>
      rw [hbroken.commands, Environment.after_append, ← hbooked.reached,
        Environment.after_snoc, hbroken.execute]
    | unreadable hworld hcommands _ =>
      rw [hworld, hcommands, Environment.after_append, hbooked.reached]

end Walk

/-! ### The survey and the walk agree -/

/-- There is a file of the name. -/
def Environment.HasFile (env : Environment World) (world : World) (name : String) : Prop :=
  ∃ time, env.modified world name = .ok (some time)

/-- None of the commands, when they are executed one after the other, takes away the file of
the name or makes it one that cannot be looked at. -/
def Environment.Spares (env : Environment World) (world : World) (commands : List String)
    (name : String) : Prop :=
  ∀ (before after : List String) (command : String), commands = before ++ command :: after →
    env.HasFile (env.after world before) name →
    env.HasFile (env.after world (before ++ [command])) name

theorem Environment.Spares.hasFile {env : Environment World} {world : World}
    {commands : List String} {name : String} (h : env.Spares world commands name)
    (hfile : env.HasFile world name) :
  env.HasFile (env.after world commands) name
  := by
  induction commands using List.reverseRecOn with
  | nil => exact hfile
  | append_singleton commands command ih =>
    apply h commands [] command rfl
    apply ih
    intro before after other hsplit
    apply h before (after ++ [command]) other
    rw [hsplit, List.append_assoc, List.cons_append]

section

variable {env : Environment World} {world : World} {root : g.Id}

/-- A build that ends with an error after its survey cannot enter its root, or a turn of its
loop fails, before which the books are kept. -/
theorem Walk.cases_of_build_error {final : List g.Id} {e : Stop BuildError}
    (hpost : g.PostOrderOf root final) (hsurvey : survey env world g root = none)
    (herror : (build env g (Marks.clear g) world root).result = .error e) :
  let progress := (build env g (Marks.clear g) world root).progress
  (Progress.start (Marks.clear g) world).enter env none root = (.error e, progress) ∨
    ∃ order last, Follows final order last ∧ Progress.Booked env world order last.progress ∧
      Way root last ∧ Failure env last e progress
  := by
  have hkept := (kept_booked env world final).and (kept_way env root final)
  have hstart : ∀ p, (Progress.start (Marks.clear g) world).enter env none root = (.ok (), p) →
      Progress.Booked env world [] p ∧ Way root ⟨[frame g root], p⟩ :=
    fun _ henter => ⟨Progress.booked_of_enter_start henter, way_start root _⟩
  rcases hkept.of_build_error hpost hstart hsurvey herror with
    henter | ⟨order, last, hfollows, ⟨hbooked, hway⟩, hfailure⟩
  · exact .inl henter
  · exact .inr ⟨order, last, hfollows, hbooked, hway, hfailure⟩

/-- What stops a build whose survey has met no error says something of the world that the
commands of the build have led to. -/
theorem blamed_of_build {e : Stop BuildError} (hsurvey : survey env world g root = none)
    (herror : (build env g (Marks.clear g) world root).result = .error e) :
  let progress := (build env g (Marks.clear g) world root).progress
  Walk.Blamed env root progress.world e ∧ progress.world = env.after world progress.commands
  := by
  obtain ⟨order, hpost, -⟩ := exists_postOrderOf_of_survey hsurvey
  rcases Walk.cases_of_build_error hpost hsurvey herror with
    henter | ⟨done, last, hfollows, hbooked, -, hfailure⟩
  · obtain ⟨-, hworld, hcommands⟩ := Progress.enterFailure_of_enter henter
    use Walk.blamed_of_enter .refl henter
    rw [hworld, hcommands]
    rfl
  · exact ⟨hfailure.blamed hpost hfollows, hfailure.world_eq hbooked⟩

/-- A build of a declared root whose survey has met no error does not meet a cycle, whatever
its commands do.  If no command takes away the file of a node that is not declared, it does
not miss a prerequisite either, and only a command that fails, or a declared node whose file
cannot be looked at, stops it early. -/
theorem error_of_build (hroot : (g.node root).declared = true)
    (hsurvey : survey env world g root = none) :
  let run := build env g (Marks.clear g) world root
  (∀ cycle, run.result ≠ .error (.failure (.cyclicDependency cycle))) ∧
  ((∀ node, g.Reaches root node → (g.node node).declared = false →
      env.Spares world run.commands (g.name node)) →
    (∀ name neededBy, run.result ≠ .error (.failure (.missingPrerequisite name neededBy))) ∧
    ∀ e, run.result = .error e →
      (∃ cause, e = .failure (.command cause)) ∨
        ∃ node cause, g.Reaches root node ∧ (g.node node).declared = true ∧
          env.modified run.progress.world (g.name node) = .error cause ∧ e = cause.map .stat)
  := by
  intro run
  constructor
  · intro cycle herror
    obtain ⟨hblamed, -⟩ := blamed_of_build hsurvey herror
    cases hblamed
  · intro hspares
    obtain ⟨order, hpost, hmet⟩ := exists_postOrderOf_of_survey hsurvey
    -- what the survey has found is still there where the build ends
    have hfile : ∀ e, run.result = .error e → ∀ node, g.Reaches root node →
        (g.node node).declared = false → env.HasFile run.progress.world (g.name node) := by
      intro e herror node hreaches hdeclared
      rw [(blamed_of_build hsurvey herror).2]
      apply (hspares node hreaches hdeclared).hasFile
      rcases hmet node hreaches with rfl | hdeclared' | hthere
      · simp [hroot] at hdeclared
      · simp [hdeclared'] at hdeclared
      · apply hthere
    have hdeclared : ∀ e, run.result = .error e → ∀ node cause, g.Reaches root node →
        env.modified run.progress.world (g.name node) = .error cause →
        (g.node node).declared = true := by
      intro e herror node cause hreaches hunreadable
      by_contra hdeclared
      obtain ⟨time, htime⟩ := hfile e herror node hreaches (Bool.not_eq_true _ ▸ hdeclared)
      cases htime.symm.trans hunreadable
    have hended : ∀ e, run.result = .error e → (∃ cause, e = .failure (.command cause)) ∨
        ∃ node cause, g.Reaches root node ∧ (g.node node).declared = true ∧
          env.modified run.progress.world (g.name node) = .error cause ∧ e = cause.map .stat := by
      intro e herror
      obtain ⟨hblamed, -⟩ := blamed_of_build hsurvey herror
      cases hblamed with
      | @command cause => exact .inl ⟨cause, rfl⟩
      | @unreadable node cause hreaches hunreadable =>
        exact .inr ⟨node, .failure cause, hreaches,
          hdeclared _ herror node _ hreaches hunreadable, hunreadable, rfl⟩
      | @panic node hreaches hpanic =>
        exact .inr ⟨node, .panic, hreaches, hdeclared _ herror node _ hreaches hpanic, hpanic, rfl⟩
      | @missing node neededBy hreaches hdeclared hnone =>
        obtain ⟨time, htime⟩ := hfile _ herror node hreaches hdeclared
        cases htime.symm.trans hnone
    refine ⟨?_, hended⟩
    intro name neededBy herror
    rcases hended _ herror with ⟨cause, heq⟩ | ⟨node, cause, -, -, -, heq⟩
    · cases heq
    · cases cause <;> cases heq

end

/-- Nothing takes away a file where commands only make files. -/
theorem Environment.spares_refusing (refused : String) (files commands : List String)
    (name : String) :
  (refusing refused).Spares files commands name
  := by
  intro before after command _ hfile
  have hiff : ∀ files, (refusing refused).HasFile files name ↔ name ∈ files := by
    intro files
    simp [HasFile, refusing, touching]
  rw [hiff] at hfile ⊢
  rw [after_snoc]
  simp only [refusing, touching]
  split
  · exact hfile
  · exact List.mem_cons_of_mem _ hfile

/-- The right part of `diamond` is made again, but the program cannot be. -/
theorem result_build_refusing :
  (build (.refusing "app") Graph.diamond (Marks.clear Graph.diamond)
    ["app", "left", "source", "right"] Graph.diamondRoot).result
    = .error (.failure (.command (.failed "app" (some 1))))
  := by cbv

theorem error_of_build_diamond :
  let run := build (.refusing "app") Graph.diamond (Marks.clear Graph.diamond)
    ["app", "left", "source", "right"] Graph.diamondRoot
  (Graph.diamond.node Graph.diamondRoot).declared = true ∧
    survey (.refusing "app") ["app", "left", "source", "right"] Graph.diamond Graph.diamondRoot
      = none ∧
    run.result = .error (.failure (.command (.failed "app" (some 1)))) ∧
    (∀ cycle, run.result ≠ .error (.failure (.cyclicDependency cycle))) ∧
    ∀ name neededBy, run.result ≠ .error (.failure (.missingPrerequisite name neededBy))
  := by
  intro run
  have hroot : (Graph.diamond.node Graph.diamondRoot).declared = true := by decide
  have hsurvey : survey (.refusing "app") ["app", "left", "source", "right"] Graph.diamond
      Graph.diamondRoot = none := by
    cbv
  obtain ⟨hcycle, hmissing⟩ := error_of_build hroot hsurvey
  refine ⟨hroot, hsurvey, result_build_refusing, hcycle, (hmissing fun node _ _ => ?_).1⟩
  apply Environment.spares_refusing

end IncrementalBuild
