import IncrementalBuild.Proofs.Survey.Invariant
import IncrementalBuild.Proofs.Walk.Turn

/-!
# Builds and the paths of errors

When the time of a file cannot be found out, the error tells a path.  In one environment that path
may be another one than in a second environment, while everything else is the same as far as the
nodes of a graph are concerned: then the second one `Environment.Relabels` the first.  A build
never reads the path of an error.  So every operation of a build, and the build itself, is natural
in it: it comes to the same, but for the path in the error, and in what the trace says of the last
look at a file.
-/

namespace IncrementalBuild

variable {g : Graph} {World : Type} {f : StatError → StatError} {env env' : Environment World}
  {world : World}

/-- As far as the nodes of a graph are concerned, two environments differ in nothing but what the
error tells when the time of a file cannot be found out. -/
structure Environment.Relabels (f : StatError → StatError) (g : Graph)
    (env env' : Environment World) : Prop where
  modified : ∀ (world : World) (node : g.Id),
    env'.modified world (g.name node) = (env.modified world (g.name node)).mapError (.map f)
  execute : ∀ (world : World) (command : String),
    env'.execute world command = env.execute world command

/-- The error with another path, if it tells of one. -/
def BuildError.relabel (f : StatError → StatError) : BuildError → BuildError
  | stat e => .stat (f e)
  | unknownTarget name => .unknownTarget name
  | noTargets => .noTargets
  | missingPrerequisite name neededBy => .missingPrerequisite name neededBy
  | cyclicDependency cycle => .cyclicDependency cycle
  | command e => .command e

/-- The action with another path in the error, if it is a look at a file that failed. -/
def Action.relabel (f : StatError → StatError) : Action g → Action g
  | looked node found => .looked node (found.mapError (.map f))
  | foundAbsent node => .foundAbsent node
  | foundOutdated node dependency => .foundOutdated node dependency
  | issued node command => .issued node command

@[simp]
theorem Action.command?_relabel (f : StatError → StatError) (action : Action g) :
  (action.relabel f).command? = action.command?
  := by cases action <;> rfl

@[simp]
theorem Action.event?_relabel (f : StatError → StatError) (action : Action g) :
  (action.relabel f).event? = action.event?
  := by cases action <;> rfl

/-! ### Operations on one node -/

namespace Progress

variable {p : Progress g World} {node : g.Id}

/-- The progress with other paths in the errors of its trace. -/
def relabel (f : StatError → StatError) (p : Progress g World) : Progress g World :=
  { p with trace := p.trace.map (Action.relabel f) }

/-- How an operation ends, with other paths in its error and in the errors of its trace. -/
def relabelEnd (f : StatError → StatError)
    (ended : Except (Stop BuildError) Unit × Progress g World) :
    Except (Stop BuildError) Unit × Progress g World :=
  (ended.1.mapError (.map (BuildError.relabel f)), ended.2.relabel f)

@[simp]
theorem relabel_start (f : StatError → StatError) (marks : Marks g) (world : World) :
  (start marks world).relabel f = start marks world
  := by simp [relabel, start]

@[simp]
theorem events_relabel (f : StatError → StatError) (p : Progress g World) :
  (p.relabel f).trace.toList.filterMap Action.event? = p.trace.toList.filterMap Action.event?
  := by simp [relabel, List.filterMap_map]

theorem record_relabel (f : StatError → StatError) (p : Progress g World) (action : Action g) :
  (p.relabel f).record (action.relabel f) = (p.record action).relabel f
  := by simp [relabel, record, Array.map_push]

theorem mark_relabel (f : StatError → StatError) (p : Progress g World) (node : g.Id)
    (change : Mark → Mark) :
  (p.relabel f).mark node change = (p.mark node change).relabel f
  := rfl

theorem look_relabel (h : env.Relabels f g env') (node : g.Id) (p : Progress g World) :
  (p.relabel f).look env' node
    = ((p.look env node).1.mapError (.map f), (p.look env node).2.relabel f)
  := by
  have hfound : env'.modified (p.relabel f).world (g.name node) = _ := h.modified p.world node
  simp only [look, hfound, ← record_relabel]
  rfl

theorem enter_relabel (h : env.Relabels f g env') (parent? : Option g.Id) (node : g.Id)
    (p : Progress g World) :
  (p.relabel f).enter env' parent? node = relabelEnd f (p.enter env parent? node)
  := by
  simp only [enter, look_relabel h]
  rcases p.look env node with ⟨found, q⟩
  cases found with
  | error e => cases e <;> rfl
  | ok found =>
    cases found with
    | some time => rfl
    | none =>
      simp only [Except.mapError, Option.isSome_none, Bool.false_eq_true, if_false]
      split
      · rw [relabelEnd, ← mark_relabel, ← record_relabel]
        rfl
      · rfl

theorem compare_relabel (f : StatError → StatError) (p : Progress g World)
    (node dependency : g.Id) :
  (p.relabel f).compare node dependency = (p.compare node dependency).relabel f
  := by
  have hmarks : (p.relabel f).marks = p.marks := rfl
  simp only [compare, hmarks]
  split
  · rfl
  · split
    · rw [← mark_relabel, ← record_relabel]
      rfl
    · rfl

theorem execute_relabel (h : env.Relabels f g env') (node : g.Id) (commands : List String)
    (p : Progress g World) :
  (p.relabel f).execute env' node commands = relabelEnd f (p.execute env node commands)
  := by
  induction commands generalizing p with
  | nil => rfl
  | cons command rest ih =>
    have hissued : (p.relabel f).record (.issued node command)
        = (p.record (.issued node command)).relabel f := record_relabel f p (.issued node command)
    have hworld : ((p.record (.issued node command)).relabel f).world = p.world := rfl
    have hworld' : (p.record (.issued node command)).world = p.world := rfl
    simp only [execute, hissued, hworld, hworld', h.execute]
    rcases env.execute p.world command with ⟨result, after⟩
    cases result with
    | error e => rfl
    | ok _ =>
      apply ih { p.record (.issued node command) with
        world := after, commandsRun := p.commandsRun + 1 }

theorem settle_relabel (h : env.Relabels f g env') (node : g.Id) (p : Progress g World) :
  (p.relabel f).settle env' node = relabelEnd f (p.settle env node)
  := by
  have hlook := look_relabel h node { p with rebuilt := p.rebuilt.push node }
  change Progress.look env' node { p.relabel f with rebuilt := p.rebuilt.push node } = _ at hlook
  have hrebuilt : (p.relabel f).rebuilt = p.rebuilt := rfl
  simp only [settle, hrebuilt, hlook]
  rcases Progress.look env node { p with rebuilt := p.rebuilt.push node } with ⟨found, q⟩
  cases found with
  | error e => cases e <;> rfl
  | ok found => rfl

theorem finish_relabel (h : env.Relabels f g env') (node : g.Id) (p : Progress g World) :
  (p.relabel f).finish env' node = relabelEnd f (p.finish env node)
  := by
  have hmarks : (p.relabel f).marks = p.marks := rfl
  simp only [finish, hmarks, execute_relabel h]
  split
  · rcases p.execute env node (g.node node).commands.toList with ⟨result, q⟩
    cases result with
    | error e => rfl
    | ok _ => apply settle_relabel h
  · rfl

end Progress

/-! ### Walks -/

namespace Walk

open Progress

/-- The walk with other paths in the errors of its trace. -/
def relabel (f : StatError → StatError) (walk : Walk g World) : Walk g World :=
  ⟨walk.stack, walk.progress.relabel f⟩

/-- The outcome of a turn, with other paths in its error and in the errors of its trace. -/
def Step.relabel (f : StatError → StatError) : Step g World → Step g World
  | finished p => .finished (p.relabel f)
  | failed e p => .failed (e.map (.relabel f)) (p.relabel f)
  | next walk => .next (walk.relabel f)

theorem Frame.compare_relabel (f : StatError → StatError) (frame : Frame g)
    (p : Progress g World) :
  Frame.compare frame (p.relabel f) = (Frame.compare frame p).relabel f
  := by
  unfold Frame.compare
  split
  · rfl
  · apply Progress.compare_relabel

theorem step_relabel (h : env.Relabels f g env') (walk : Walk g World) :
  (walk.relabel f).step env' = (walk.step env).relabel f
  := by
  match walk with
  | ⟨[], p⟩ => rfl
  | ⟨⟨node, [], resolved⟩ :: below, p⟩ =>
    simp only [relabel, step, Frame.compare_relabel, finish_relabel h]
    rcases (Frame.compare ⟨node, [], resolved⟩ p).finish env node with ⟨result, q⟩
    cases result <;> rfl
  | ⟨⟨node, dependency :: rest, resolved⟩ :: below, p⟩ =>
    simp only [relabel, step, Frame.compare_relabel, enter_relabel h]
    generalize Frame.compare ⟨node, dependency :: rest, resolved⟩ p = q
    have hmarks : (q.relabel f).marks = q.marks := rfl
    rw [hmarks]
    cases (q.marks.mark dependency).visit with
    | done => rfl
    | inProgress => rfl
    | unvisited =>
      rcases q.enter env (some node) dependency with ⟨result, after⟩
      cases result <;> rfl

theorem run_relabel (h : env.Relabels f g env') (walk : Walk g World) :
  (walk.relabel f).run env' = relabelEnd f (walk.run env)
  := by
  have hstep := step_relabel h walk
  induction walk using Walk.run.induct env with
  | case1 walk p hfinished =>
    rw [hfinished] at hstep
    rw [run_of_finished hfinished, run_of_finished hstep]
    rfl
  | case2 walk e p hfailed =>
    rw [hfailed] at hstep
    rw [run_of_failed hfailed, run_of_failed hstep]
    rfl
  | case3 walk next hnext ih =>
    rw [hnext] at hstep
    rw [run_of_next hnext, run_of_next hstep, ih (step_relabel h next)]

end Walk

theorem walk_relabel (h : env.Relabels f g env') (root : g.Id) (p : Progress g World) :
  walk env' g root (p.relabel f) = Progress.relabelEnd f (walk env g root p)
  := by
  simp only [walk, Progress.enter_relabel h]
  rcases p.enter env none root with ⟨result, q⟩
  cases result with
  | error e => rfl
  | ok _ => apply Walk.run_relabel h ⟨[Walk.frame g root], q⟩

/-! ### Surveys and builds -/

namespace Survey

theorem missing?_relabel (h : env.Relabels f g env') (world : World) (node dependency : g.Id) :
  missing? env' world node dependency
    = (missing? env world node dependency).map (.map (BuildError.relabel f))
  := by
  unfold missing?
  rw [h.modified]
  split
  · rfl
  · cases env.modified world (g.name dependency) with
    | error e => cases e <;> rfl
    | ok found => cases found <;> rfl

/-- The outcome of a turn, with another path in its error. -/
def Step.relabel (f : StatError → StatError) : Step g → Step g
  | finished => .finished
  | failed e => .failed (e.map (.relabel f))
  | next survey => .next survey

theorem step_relabel (h : env.Relabels f g env') (world : World) (survey : Survey g) :
  survey.step env' world = (survey.step env world).relabel f
  := by
  obtain ⟨visits, stack⟩ := survey
  match stack with
  | [] => rfl
  | ⟨node, []⟩ :: below => rfl
  | ⟨node, dependency :: rest⟩ :: below =>
    have hlt := g.id_lt_size dependency
    simp only [step, missing?_relabel h]
    cases visits[dependency.val] with
    | done => rfl
    | inProgress => rfl
    | unvisited => cases missing? env world node dependency <;> rfl

theorem run_relabel (h : env.Relabels f g env') (world : World) (survey : Survey g) :
  survey.run env' world = (survey.run env world).map (.map (BuildError.relabel f))
  := by
  have hstep := step_relabel h world survey
  induction survey using Survey.run.induct env world with
  | case1 survey hfinished =>
    rw [hfinished] at hstep
    rw [run_of_finished hfinished, run_of_finished hstep]
    rfl
  | case2 survey e hfailed =>
    rw [hfailed] at hstep
    rw [run_of_failed hfailed, run_of_failed hstep]
    rfl
  | case3 survey next hnext ih =>
    rw [hnext] at hstep
    rw [run_of_next hnext, run_of_next hstep, ih (step_relabel h world next)]

end Survey

/-- The build with other paths in its error and in the errors of its trace. -/
def Run.relabel (f : StatError → StatError) (run : Run g World) : Run g World :=
  ⟨run.result.mapError (.map (BuildError.relabel f)), run.progress.relabel f, run.events⟩

theorem Run.commands_relabel (f : StatError → StatError) (run : Run g World) :
  (run.relabel f).commands = run.commands
  := by simp [commands, relabel, Progress.relabel, List.filterMap_map]

theorem surveyEvents_relabel (f : StatError → StatError) (e : Stop BuildError) :
  (e.map (.relabel f)).surveyEvents = e.surveyEvents
  := by
  cases e with
  | failure e => cases e <;> rfl
  | panic => rfl

/-- A build in another environment, which differs in nothing but the paths of errors, is the same
but for these. -/
theorem build_relabel (h : env.Relabels f g env') (marks : Marks g) (world : World)
    (root : g.Id) :
  build env' g marks world root = (build env g marks world root).relabel f
  := by
  have hsurvey : survey env' world g root
      = (survey env world g root).map (.map (BuildError.relabel f)) :=
    Survey.run_relabel h world (.start root)
  have hwalk := walk_relabel h root (Progress.start marks world)
  rw [Progress.relabel_start] at hwalk
  simp only [build, hsurvey, hwalk]
  cases survey env world g root with
  | some e =>
    simp only [Option.map_some, surveyEvents_relabel, Run.relabel, Except.mapError,
      Progress.relabel_start]
  | none =>
    simp only [Option.map_none]
    split
    · simp only [Run.relabel, Except.mapError, Progress.relabel_start]
    · rcases walk env g root (Progress.start marks world) with ⟨result, p⟩
      have hevents := p.events_relabel f
      cases result <;> simp only [Progress.relabelEnd, Except.mapError, hevents] <;> rfl

end IncrementalBuild
