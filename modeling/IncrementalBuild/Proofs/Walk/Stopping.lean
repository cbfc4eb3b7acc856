import IncrementalBuild.Proofs.Walk.Failure

/-!
# Builds that are stopped

In `Environment.stopping` some commands are stopped in some worlds: they are not executed but fail,
and leave a world of their own.  A build there is the same as the build where no command is stopped,
as long as none of the commands it gives is one to be stopped.  The first that is ends it, and
then the commands that were given, this one included, are the first of those that the build gives
where no command is stopped.

So what a build does up to a command does not depend on what that command and later ones do.
-/

namespace IncrementalBuild

variable {g : Graph} {World : Type}

/-- The environment in which a command may be stopped: it fails, and leaves the given world. -/
def Environment.stopping (env : Environment World)
    (halt : World → String → Option (CommandError × World)) : Environment World where
  modified := env.modified
  execute world command :=
    match halt world command with
    | some (e, after) => (.error e, after)
    | none => env.execute world command

/-- None of some commands, executed one after the other, is one to be stopped. -/
def Environment.Passes (env : Environment World)
    (halt : World → String → Option (CommandError × World)) (world : World)
    (commands : List String) : Prop :=
  ∀ before command, before ++ [command] <+: commands →
    halt (env.after world before) command = none

/-- A command that comes after others is the first that is stopped, with an error and a world. -/
structure Environment.Stops (env : Environment World)
    (halt : World → String → Option (CommandError × World)) (world : World)
    (before : List String) (command : String) (e : CommandError) (after : World) : Prop where
  passes : env.Passes halt world before
  halt_eq : halt (env.after world before) command = some (e, after)

variable {env : Environment World} {halt : World → String → Option (CommandError × World)}
  {world : World}

namespace Progress

variable {p q : Progress g World} {node : g.Id}

/-! ### Commands are only added -/

@[simp]
theorem commands_issued (p : Progress g World) (node : g.Id) (command : String) :
  (p.record (.issued node command)).commands = p.commands ++ [command]
  := by simp [commands, record, Action.command?]

theorem commands_prefix_execute (env : Environment World) (node : g.Id) (commands : List String)
    (p : Progress g World) :
  p.commands <+: (p.execute env node commands).2.commands
  := by
  induction commands generalizing p with
  | nil => apply List.prefix_refl
  | cons command rest ih =>
    have hissued : p.commands <+: (p.record (.issued node command)).commands := by
      rw [commands_issued]
      apply List.prefix_append
    simp only [execute]
    split
    · apply hissued
    · next after hended =>
      have hrest := ih { p.record (.issued node command) with
        world := after, commandsRun := p.commandsRun + 1 }
      exact hissued.trans hrest

theorem commands_settle (env : Environment World) (node : g.Id) (p : Progress g World) :
  (p.settle env node).2.commands = p.commands ∧ (p.settle env node).2.world = p.world
  := by
  cases hfile : env.modified p.world (g.name node) with
  | error e =>
    rw [settle_of_error hfile]
    simp [commands, record, Action.command?]
  | ok found =>
    rw [settle_of_ok hfile]
    simp [commands, record, mark, leave, Action.command?]

theorem commands_enter (env : Environment World) (parent? : Option g.Id) (node : g.Id)
    (p : Progress g World) :
  (p.enter env parent? node).2.commands = p.commands
    ∧ (p.enter env parent? node).2.world = p.world
  := by
  rcases henter : p.enter env parent? node with ⟨result, q⟩
  cases result with
  | error e =>
    obtain ⟨-, hworld, hcommands⟩ := enterFailure_of_enter henter
    exact ⟨hcommands, hworld⟩
  | ok _ =>
    obtain ⟨found, hentered⟩ := entered_of_enter henter
    exact ⟨hentered.commands, hentered.world⟩

theorem commands_prefix_finish (env : Environment World) (node : g.Id) (p : Progress g World) :
  p.commands <+: (p.finish env node).2.commands
  := by
  have hexecute := commands_prefix_execute env node (g.node node).commands.toList p
  unfold finish
  split
  · split
    · next h =>
      rw [h] at hexecute
      exact hexecute
    · next mid h =>
      rw [h] at hexecute
      rw [(commands_settle env node mid).1]
      exact hexecute
  · apply List.prefix_refl

/-! ### Operations on one node -/

/-- The commands that were given have led to the world, and none of them is one to be stopped. -/
structure Unstopped (env : Environment World)
    (halt : World → String → Option (CommandError × World)) (world : World)
    (p : Progress g World) : Prop where
  reached : p.world = env.after world p.commands
  passes : env.Passes halt world p.commands

/-- How an operation ends where commands are stopped, beside how it ends where they are not: in
the same way, or with the first command that is stopped. -/
inductive StopAlike (env : Environment World)
    (halt : World → String → Option (CommandError × World)) (world : World) :
    Except (Stop BuildError) Unit × Progress g World →
      Except (Stop BuildError) Unit × Progress g World → Prop
  | passed {ended : Except (Stop BuildError) Unit × Progress g World} :
    Unstopped env halt world ended.2 → StopAlike env halt world ended ended
  | stopped {before : List String} {command : String} {e : CommandError} {q : Progress g World}
      {ended : Except (Stop BuildError) Unit × Progress g World} :
    env.Stops halt world before command e q.world → q.commands = before ++ [command] →
      q.commands <+: ended.2.commands →
      StopAlike env halt world (.error (.failure (.command e)), q) ended

namespace Unstopped

theorem congr (h : Unstopped env halt world p) (hcommands : q.commands = p.commands)
    (hworld : q.world = p.world) :
  Unstopped env halt world q
  := by
  constructor
  · rw [hworld, hcommands, h.reached]
  · rw [hcommands]
    apply h.passes

/-- One more command that is not one to be stopped. -/
theorem snoc {command : String} (h : Unstopped env halt world p)
    (hhalt : halt p.world command = none) (hcommands : q.commands = p.commands ++ [command])
    (hworld : q.world = (env.execute p.world command).2) :
  Unstopped env halt world q
  := by
  constructor
  · rw [hworld, hcommands, Environment.after_snoc, h.reached]
  · intro before other hbegins
    rw [hcommands, List.prefix_concat_iff] at hbegins
    rcases hbegins with heq | hbegins
    · obtain ⟨rfl, rfl⟩ := List.append_singleton_inj.1 heq
      rw [← h.reached, hhalt]
    · apply h.passes before other hbegins

theorem execute (h : Unstopped env halt world p) (node : g.Id) (commands : List String) :
  StopAlike env halt world (p.execute (env.stopping halt) node commands)
    (p.execute env node commands)
  := by
  induction commands generalizing p with
  | nil => apply StopAlike.passed h
  | cons command rest ih =>
    simp only [Progress.execute, Environment.stopping]
    cases hhalt : halt (p.record (.issued node command)).world command with
    | some stop =>
      obtain ⟨e, after⟩ := stop
      apply StopAlike.stopped
      · apply Environment.Stops.mk h.passes
        rw [← h.reached]
        exact hhalt
      · apply commands_issued
      · split
        · apply List.prefix_refl
        · next after hended =>
          exact commands_prefix_execute env node rest { p.record (.issued node command) with
            world := after, commandsRun := p.commandsRun + 1 }
    | none =>
      cases hended : env.execute (p.record (.issued node command)).world command with
      | mk result after =>
        have hafter : after = (env.execute p.world command).2 := by
          change env.execute p.world command = _ at hended
          rw [hended]
        cases result with
        | error e => exact .passed (h.snoc hhalt (commands_issued p node command) hafter)
        | ok _ => exact ih (h.snoc hhalt (commands_issued p node command) hafter)

theorem finish (h : Unstopped env halt world p) (node : g.Id) :
  StopAlike env halt world (p.finish (env.stopping halt) node) (p.finish env node)
  := by
  have hexecute := h.execute node (g.node node).commands.toList
  unfold Progress.finish
  split
  · generalize p.execute (env.stopping halt) node (g.node node).commands.toList = stopped
      at hexecute
    generalize p.execute env node (g.node node).commands.toList = free at hexecute
    cases hexecute with
    | passed hpassed =>
      obtain ⟨result, q⟩ := stopped
      obtain ⟨hcommands, hworld⟩ := commands_settle env node q
      cases result with
      | error e => exact .passed hpassed
      | ok _ => exact .passed (hpassed.congr hcommands hworld)
    | stopped hstops hcommands hbegins =>
      obtain ⟨result, q⟩ := free
      cases result with
      | error e => exact .stopped hstops hcommands hbegins
      | ok _ =>
        rw [← (commands_settle env node q).1] at hbegins
        exact .stopped hstops hcommands hbegins
  · exact .passed (h.congr rfl rfl)

end Unstopped

end Progress

/-! ### Walks -/

open Progress

namespace Walk

variable {walk : Walk g World}

/-- What has been done after a turn. -/
def Step.progress : Step g World → Progress g World
  | finished p => p
  | failed _ p => p
  | next walk => walk.progress

/-- How a turn ends where commands are stopped, beside how it ends where they are not. -/
inductive StepStopAlike (env : Environment World)
    (halt : World → String → Option (CommandError × World)) (world : World) :
    Step g World → Step g World → Prop
  | passed {step : Step g World} :
    step.progress.Unstopped env halt world → StepStopAlike env halt world step step
  | stopped {before : List String} {command : String} {e : CommandError} {q : Progress g World}
      {step : Step g World} :
    env.Stops halt world before command e q.world → q.commands = before ++ [command] →
      q.commands <+: step.progress.commands →
      StepStopAlike env halt world (.failed (.failure (.command e)) q) step

theorem Frame.commands_compare (frame : Frame g) (p : Progress g World) :
  (Frame.compare frame p).commands = p.commands ∧ (Frame.compare frame p).world = p.world
  := by
  unfold Frame.compare
  split
  · exact ⟨rfl, rfl⟩
  · exact ⟨p.commands_compare _ _, p.world_compare _ _⟩

/-- No command is given in a turn that deals with a dependency. -/
theorem commands_step (env : Environment World) (node dependency : g.Id) (rest : List g.Id)
    (resolved : Option g.Id) (below : List (Frame g)) (p : Progress g World) :
  let q := (step env ⟨⟨node, dependency :: rest, resolved⟩ :: below, p⟩).progress
  q.commands = p.commands ∧ q.world = p.world
  := by
  have hcompare := Frame.commands_compare ⟨node, dependency :: rest, resolved⟩ p
  obtain ⟨hcommands, hworld⟩ := commands_enter env (some node) dependency
    (Frame.compare ⟨node, dependency :: rest, resolved⟩ p)
  rw [hcompare.1] at hcommands
  rw [hcompare.2] at hworld
  simp only [step]
  split
  · exact hcompare
  · exact hcompare
  · split
    · next h =>
      rw [h] at hcommands hworld
      exact ⟨hcommands, hworld⟩
    · next h =>
      rw [h] at hcommands hworld
      exact ⟨hcommands, hworld⟩

theorem commands_prefix_step (env : Environment World) (walk : Walk g World) :
  walk.progress.commands <+: (walk.step env).progress.commands
  := by
  match walk with
  | ⟨[], p⟩ => apply List.prefix_refl
  | ⟨⟨node, [], resolved⟩ :: below, p⟩ =>
    obtain ⟨hcommands, -⟩ := Frame.commands_compare ⟨node, [], resolved⟩ p
    have hfinish := commands_prefix_finish env node (Frame.compare ⟨node, [], resolved⟩ p)
    rw [hcommands] at hfinish
    simp only [step]
    split
    · next h =>
      rw [h] at hfinish
      exact hfinish
    · next h =>
      rw [h] at hfinish
      exact hfinish
  | ⟨⟨node, dependency :: rest, resolved⟩ :: below, p⟩ =>
    obtain ⟨hcommands, -⟩ := commands_step env node dependency rest resolved below p
    exact ⟨[], by rw [List.append_nil, hcommands]⟩

theorem commands_prefix_run (env : Environment World) (walk : Walk g World) :
  walk.progress.commands <+: (walk.run env).2.commands
  := by
  have hstep := commands_prefix_step env walk
  induction walk using Walk.run.induct env with
  | case1 walk p hfinished =>
    rw [hfinished] at hstep
    rwa [run_of_finished hfinished]
  | case2 walk e p hfailed =>
    rw [hfailed] at hstep
    rwa [run_of_failed hfailed]
  | case3 walk next hnext ih =>
    rw [hnext] at hstep
    rw [run_of_next hnext]
    apply hstep.trans (ih (commands_prefix_step env next))

/-- A turn that does not stop a command is the turn where none is stopped. -/
theorem stopAlike_step (h : walk.progress.Unstopped env halt world) :
  StepStopAlike env halt world (walk.step (env.stopping halt)) (walk.step env)
  := by
  match walk with
  | ⟨[], p⟩ => exact .passed h
  | ⟨⟨node, [], resolved⟩ :: below, p⟩ =>
    obtain ⟨hcommands, hworld⟩ := Frame.commands_compare ⟨node, [], resolved⟩ p
    have hfinish := (h.congr hcommands hworld).finish node
    simp only [step]
    generalize (Frame.compare ⟨node, [], resolved⟩ p).finish (env.stopping halt) node = stopped
      at hfinish
    generalize (Frame.compare ⟨node, [], resolved⟩ p).finish env node = free at hfinish
    cases hfinish with
    | passed hpassed =>
      obtain ⟨result, q⟩ := stopped
      cases result <;> exact .passed hpassed
    | stopped hstops hcommands hbegins =>
      obtain ⟨result, q⟩ := free
      cases result <;> exact .stopped hstops hcommands hbegins
  | ⟨⟨node, dependency :: rest, resolved⟩ :: below, p⟩ =>
    -- files are looked at in the same way, so the turn is the same
    have hsame : step (env.stopping halt) ⟨⟨node, dependency :: rest, resolved⟩ :: below, p⟩
        = step env ⟨⟨node, dependency :: rest, resolved⟩ :: below, p⟩ := rfl
    obtain ⟨hcommands, hworld⟩ := commands_step env node dependency rest resolved below p
    rw [hsame]
    exact .passed (h.congr hcommands hworld)

theorem stopAlike_run (h : walk.progress.Unstopped env halt world) :
  StopAlike env halt world (walk.run (env.stopping halt)) (walk.run env)
  := by
  induction walk using Walk.run.induct env with
  | case1 walk p hfinished =>
    have hstep := stopAlike_step h
    rw [hfinished] at hstep
    rw [run_of_finished hfinished]
    generalize hstopped : walk.step (env.stopping halt) = step at hstep
    cases hstep with
    | passed hpassed =>
      rw [run_of_finished hstopped]
      exact .passed hpassed
    | stopped hstops hcommands hbegins =>
      rw [run_of_failed hstopped]
      exact .stopped hstops hcommands hbegins
  | case2 walk e p hfailed =>
    have hstep := stopAlike_step h
    rw [hfailed] at hstep
    rw [run_of_failed hfailed]
    generalize hstopped : walk.step (env.stopping halt) = step at hstep
    cases hstep with
    | passed hpassed =>
      rw [run_of_failed hstopped]
      exact .passed hpassed
    | stopped hstops hcommands hbegins =>
      rw [run_of_failed hstopped]
      exact .stopped hstops hcommands hbegins
  | case3 walk next hnext ih =>
    have hstep := stopAlike_step h
    rw [hnext] at hstep
    rw [run_of_next hnext]
    generalize hstopped : walk.step (env.stopping halt) = step at hstep
    cases hstep with
    | passed hpassed =>
      rw [run_of_next hstopped]
      apply ih hpassed
    | stopped hstops hcommands hbegins =>
      rw [run_of_failed hstopped]
      exact .stopped hstops hcommands (hbegins.trans (commands_prefix_run env next))

end Walk

theorem stopAlike_walk {p : Progress g World} (root : g.Id)
    (h : p.Unstopped env halt world) :
  StopAlike env halt world (walk (env.stopping halt) g root p) (walk env g root p)
  := by
  obtain ⟨hcommands, hworld⟩ := commands_enter env none root p
  have hsame : p.enter (env.stopping halt) none root = p.enter env none root := rfl
  have henter := h.congr hcommands hworld
  unfold walk
  rw [hsame]
  split
  · next henter' =>
    rw [henter'] at henter
    exact .passed henter
  · next henter' =>
    rw [henter'] at henter
    exact Walk.stopAlike_run henter

/-! ### Builds -/

/-- A survey does not depend on what commands do. -/
theorem survey_stopping (env : Environment World)
    (halt : World → String → Option (CommandError × World)) (world : World) (root : g.Id) :
  survey (env.stopping halt) world g root = survey env world g root
  := by
  have hrun (s : Survey g) : s.run (env.stopping halt) world = s.run env world := by
    induction s using Survey.run.induct env world with
    | case1 s hstep =>
      have hstopped : s.step (env.stopping halt) world = .finished := hstep
      rw [Survey.run_of_finished hstep, Survey.run_of_finished hstopped]
    | case2 s e hstep =>
      have hstopped : s.step (env.stopping halt) world = .failed e := hstep
      rw [Survey.run_of_failed hstep, Survey.run_of_failed hstopped]
    | case3 s next hstep ih =>
      have hstopped : s.step (env.stopping halt) world = .next next := hstep
      rw [Survey.run_of_next hstep, Survey.run_of_next hstopped, ih]
  apply hrun

/-- How a build ends where commands are stopped, beside how it ends where they are not: in the same
way, and then none of its commands is one to be stopped; or with the error of the first command
that is stopped, and then its commands are the first of those that are given where none is
stopped. -/
inductive Run.StopAlike (env : Environment World)
    (halt : World → String → Option (CommandError × World)) (world : World) :
    Run g World → Run g World → Prop
  | passed {run : Run g World} : run.progress.world = env.after world run.commands →
    env.Passes halt world run.commands → StopAlike env halt world run run
  | stopped {before : List String} {command : String} {e : CommandError}
      {stopped run : Run g World} :
    env.Stops halt world before command e stopped.progress.world →
      stopped.commands = before ++ [command] → stopped.commands <+: run.commands →
      stopped.result = .error (.failure (.command e)) → StopAlike env halt world stopped run

namespace Run.StopAlike

variable {stopped run : Run g World}

/-- What is given where commands are stopped is what comes first where they are not. -/
theorem commands_prefix (h : StopAlike env halt world stopped run) :
  stopped.commands <+: run.commands
  := by
  cases h with
  | passed => apply List.prefix_refl
  | stopped _ _ hbegins => exact hbegins

/-- Nothing is stopped if none of the commands that are given is one to be stopped. -/
theorem eq_of_passes (h : StopAlike env halt world stopped run)
    (hpasses : env.Passes halt world stopped.commands) :
  stopped = run
  := by
  cases h with
  | passed => rfl
  | @stopped before command _ _ _ hstops hgiven =>
    have hhalt := hpasses before command (hgiven ▸ List.prefix_rfl)
    cases hhalt.symm.trans hstops.halt_eq

end Run.StopAlike

theorem build_stopping (env : Environment World)
    (halt : World → String → Option (CommandError × World)) (marks : Marks g) (world : World)
    (root : g.Id) :
  Run.StopAlike env halt world (build (env.stopping halt) g marks world root)
    (build env g marks world root)
  := by
  have hnone : ∀ before command, ¬ before ++ [command] <+: ([] : List String) := by
    simp
  have hstart : (Progress.start marks world).Unstopped env halt world :=
    ⟨rfl, fun before command hbegins => absurd hbegins (hnone before command)⟩
  have hwalk := stopAlike_walk root hstart
  unfold build
  rw [survey_stopping]
  split
  · exact .passed hstart.reached hstart.passes
  · simp only
    split
    · exact .passed hstart.reached hstart.passes
    · generalize walk (env.stopping halt) g root (Progress.start marks world) = stopped at hwalk
      generalize walk env g root (Progress.start marks world) = free at hwalk
      cases hwalk with
      | passed hpassed =>
        obtain ⟨result, p⟩ := stopped
        cases result <;> exact .passed hpassed.reached hpassed.passes
      | stopped hstops hcommands hbegins =>
        obtain ⟨result, p⟩ := free
        cases result <;> exact .stopped hstops hcommands hbegins rfl

/-- A build ends in the world that its commands have led to. -/
theorem world_of_build (env : Environment World) (marks : Marks g) (world : World) (root : g.Id) :
  (build env g marks world root).progress.world
    = env.after world (build env g marks world root).commands
  := by
  have hstop := build_stopping env (fun _ _ => none) marks world root
  cases hstop with
  | passed hreached => exact hreached
  | stopped hstops => cases hstops.halt_eq

end IncrementalBuild
