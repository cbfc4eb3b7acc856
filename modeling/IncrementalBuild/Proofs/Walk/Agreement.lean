import IncrementalBuild.Proofs.Graph.Record
import IncrementalBuild.Proofs.Walk.Likeness
import IncrementalBuild.Proofs.Walk.Relabelling
import IncrementalBuild.Proofs.Walk.Stopping

/-!
# Environments that agree along a build

Two environments may agree only in some worlds: in these the files of a graph have the same times,
but for the paths of errors, and commands do the same, `Environment.Agrees`.  If a build in one of
them passes through such worlds only, then the build in the other one comes to the same.

To prove this the commands are stopped that lead out of these worlds.  Then whatever is executed
leads from such a world to such a world, so the two builds are alike; and none of the commands of
the builds is one that is stopped.
-/

namespace IncrementalBuild

variable {g : Graph} {World : Type} {f : StatError → StatError} {good : World → Prop}
  {env env' : Environment World} {world : World}

namespace Environment

/-- In good worlds, two environments differ for the nodes of a graph in nothing but what the error
tells when the time of a file cannot be found out. -/
structure Agrees (f : StatError → StatError) (g : Graph) (good : World → Prop)
    (env env' : Environment World) : Prop where
  modified : ∀ {world}, good world → ∀ node : g.Id,
    env'.modified world (g.name node) = (env.modified world (g.name node)).mapError (.map f)
  execute : ∀ {world}, good world → ∀ command,
    env'.execute world command = env.execute world command

/-- Commands that pass through good worlds do the same in environments that agree there. -/
theorem Agrees.after_eq {commands : List String} (h : env.Agrees f g good env')
    (hgood : ∀ before, before <+: commands → good (env.after world before)) :
  env'.after world commands = env.after world commands
  := by
  induction commands using List.reverseRecOn with
  | nil => rfl
  | append_singleton commands command ih =>
    have hearlier : ∀ before, before <+: commands → good (env.after world before) :=
      fun before hbegins => hgood before (hbegins.trans (List.prefix_append _ _))
    rw [after_snoc, after_snoc, ih hearlier, h.execute (hearlier commands List.prefix_rfl)]

/-- The environment in which commands do what they do in the one, and errors of files that belong
to a graph tell what they tell in the other. -/
def relabelled (f : StatError → StatError) (g : Graph) (env env' : Environment World) :
    Environment World where
  modified world name :=
    if name ∈ g.names then (env.modified world name).mapError (.map f) else env'.modified world name
  execute := env.execute

theorem relabels_relabelled (f : StatError → StatError) (g : Graph)
    (env env' : Environment World) :
  env.Relabels f g (env.relabelled f g env')
  where
  modified := by
    intro world node
    simp only [relabelled, if_pos (g.name_mem_names node)]
  execute := fun _ _ => rfl

/-- A command is stopped if it leads to a world that is not good. -/
def straying (good : World → Prop) [DecidablePred good] (env : Environment World) (world : World)
    (command : String) : Option (CommandError × World) :=
  if good (env.execute world command).2 then none else some (.failed command none, world)

variable [DecidablePred good]

theorem good_of_straying {command : String} (h : straying good env world command = none) :
  good (env.execute world command).2
  := by
  unfold straying at h
  split at h
  · next hgood => exact hgood
  · cases h

/-- None of the commands that pass through good worlds is stopped. -/
theorem passes_straying {commands : List String}
    (hgood : ∀ before, before <+: commands → good (env.after world before)) :
  env.Passes (straying good env) world commands
  := by
  intro before command hbegins
  apply if_pos
  rw [← after_snoc]
  apply hgood _ hbegins

/-- Nor is one of them stopped in an environment that agrees in good worlds. -/
theorem Agrees.passes_straying {commands : List String} (h : env.Agrees f g good env')
    (hgood : ∀ before, before <+: commands → good (env.after world before)) :
  env'.Passes (straying good env) world commands
  := by
  intro before command hbegins
  have hafter : env'.after world before = env.after world before := by
    apply h.after_eq
    intro earlier hearlier
    apply hgood earlier (hearlier.trans ((List.prefix_append _ _).trans hbegins))
  rw [hafter]
  apply Environment.passes_straying hgood before command hbegins

/-- Where the commands are stopped that lead out of good worlds, environments that agree in good
worlds are alike. -/
theorem Agrees.alike (h : env.Agrees f g good env') :
  Alike (env'.stopping (straying good env))
    ((env.relabelled f g env').stopping (straying good env))
    fun world world' => world = world' ∧ good world
  where
  modified := by
    rintro world _ ⟨rfl, hgood⟩
    funext name
    simp only [stopping, relabelled]
    split
    · next hmem =>
      obtain ⟨id, node, hnode, rfl⟩ := Graph.mem_names_iff.1 hmem
      obtain ⟨hlt, rfl⟩ := Array.getElem?_eq_some_iff.1 hnode
      apply h.modified hgood ⟨id, hlt⟩
    · rfl
  execute := by
    rintro world _ command ⟨rfl, hgood⟩
    simp only [stopping]
    cases hstray : straying good env world command with
    | some stop =>
      apply EndAlike.intro
      unfold straying at hstray
      split at hstray
      · cases hstray
      · cases hstray
        exact ⟨rfl, hgood⟩
    | none =>
      have hafter := good_of_straying hstray
      simp only [h.execute hgood]
      change EndAlike _ (env.execute world command) (env.execute world command)
      apply EndAlike.intro
      exact ⟨rfl, hafter⟩

end Environment

open Environment

/-- A build that passes through good worlds only comes to the same in an environment that agrees
there, but for the path in its error. -/
theorem build_of_agrees (marks : Marks g) (root : g.Id) (h : env.Agrees f g good env')
    (hgood : ∀ before, before <+: (build env g marks world root).commands →
      good (env.after world before)) :
  let run := build env g marks world root
  let run' := build env' g marks world root
  run'.result = run.result.mapError (.map (BuildError.relabel f)) ∧ run'.commands = run.commands ∧
    run'.progress.world = run.progress.world
  := by
  classical
  intro run run'
  have hrelabel : build (env.relabelled f g env') g marks world root = run.relabel f :=
    build_relabel (relabels_relabelled f g env env') marks world root
  have hstop := build_stopping (env.relabelled f g env') (straying good env) marks world root
  have hstop' := build_stopping env' (straying good env) marks world root
  have halike : Run.Alike Eq _
      (build (env'.stopping (straying good env)) g marks world root)
      (build ((env.relabelled f g env').stopping (straying good env)) g marks world root) :=
    build_alike (.refl g) h.alike (fun hab => hab ▸ rfl) ⟨rfl, hgood [] List.nil_prefix⟩ rfl
  rw [hrelabel] at hstop
  change Run.StopAlike _ _ _ _ run' at hstop'
  generalize build ((env.relabelled f g env').stopping _) g marks world root = stopped
    at hstop halike
  generalize build (env'.stopping _) g marks world root = stopped' at hstop' halike
  have hcommands : stopped'.commands = stopped.commands := halike.progress.commands
  have hbegins : stopped.commands <+: run.commands := by
    rw [← Run.commands_relabel f run]
    apply hstop.commands_prefix
  have hpassed : ∀ before, before <+: stopped.commands → good (env.after world before) :=
    fun before hbefore => hgood before (hbefore.trans hbegins)
  have hrun : stopped = run.relabel f := hstop.eq_of_passes (passes_straying hpassed)
  have hrun' : stopped' = run' := by
    apply hstop'.eq_of_passes
    rw [hcommands]
    exact h.passes_straying hpassed
  rw [hrun, hrun'] at halike
  refine ⟨halike.result, ?_, halike.progress.world.1⟩
  rw [← hrun', hcommands, hrun, Run.commands_relabel]

end IncrementalBuild
