import IncrementalBuild.Proofs.Walk.Idempotence
import IncrementalBuild.Proofs.Walk.Interruption

/-!
# The first command of a build

A node is due in a world if it has commands and is not up to date there.  As long as a build has
given no command to be executed, the world is the one it began with, and what it has seen of
files is what there is: `Walk.Quiet`.  Nodes without commands may be found stale meanwhile, and
change nothing.  So the first command of a build is the one that is due first in the world it
began with, `Graph.FirstDue`; and if nothing is due, the build succeeds without a command.
-/

namespace IncrementalBuild

variable {g : Graph} {World : Type}

/-- A node has commands, and is not up to date. -/
def Graph.IsDue (g : Graph) (env : Environment World) (world : World) (node : g.Id) : Prop :=
  g.commands node ≠ [] ∧ ¬ g.UpToDate env world node

/-- A node is the first of an order that is due, and `command` is the first of its commands. -/
structure Graph.FirstDue (g : Graph) (env : Environment World) (world : World)
    (order : List g.Id) (node : g.Id) (command : String) : Prop where
  due : g.IsDue env world node
  first : ∃ earlier later, order = earlier ++ node :: later ∧
    ∀ other ∈ earlier, ¬ g.IsDue env world other
  command : (g.commands node).head? = some command

namespace Walk

variable {env : Environment World} {world : World} {root node : g.Id} {final order : List g.Id}
  {walk : Walk g World} {p q : Progress g World}

/-- No command has been given, and no node that has been left behind is due. -/
structure Quiet (env : Environment World) (world : World) (order : List g.Id)
    (p : Progress g World) : Prop where
  notDue : ∀ node ∈ order, ¬ g.IsDue env world node
  commands : p.commands = []
  world : p.world = world
  abreast : p.Abreast env

/-- Of the nodes that are to be left behind in the order `final`, none that is due has been dealt
with yet, or the command that is due first has been given first. -/
inductive Heralded (env : Environment World) (world : World) (final order : List g.Id)
    (p : Progress g World) : Prop
  | quiet : Quiet env world order p → Heralded env world final order p
  | begun {node : g.Id} {command : String} :
    g.FirstDue env world final node command → p.commands.head? = some command →
      Heralded env world final order p

/-- A command that is due first and has been given first stays the first. -/
theorem Heralded.of_append {command : String} {added : List String}
    (hdue : g.FirstDue env world final node command) (hfirst : p.commands.head? = some command)
    (hcommands : q.commands = p.commands ++ added) :
  Heralded env world final order q
  := by
  apply Heralded.begun hdue
  rw [hcommands, List.head?_append, hfirst, Option.some_or]

/-! ### What a turn of the loop does -/

theorem Heralded.compare (h : Heralded env world final order p) (node dependency : g.Id) :
  Heralded env world final order (p.compare node dependency)
  := by
  cases h with
  | quiet hquiet =>
    apply Heralded.quiet
    constructor
    · apply hquiet.notDue
    · rw [Progress.commands_compare, hquiet.commands]
    · rw [Progress.world_compare, hquiet.world]
    · apply hquiet.abreast.compare
  | begun hdue hfirst =>
    apply Heralded.begun hdue
    rw [Progress.commands_compare, hfirst]

theorem Heralded.enter {found : Option Stamp} (h : Heralded env world final order p)
    (hentered : Progress.Entered env node found p q) :
  Heralded env world final order q
  := by
  cases h with
  | quiet hquiet =>
    apply Heralded.quiet
    constructor
    · apply hquiet.notDue
    · rw [hentered.commands, hquiet.commands]
    · rw [hentered.world, hquiet.world]
    · apply hquiet.abreast.enter hentered
  | begun hdue hfirst =>
    apply Heralded.begun hdue
    rw [hentered.commands, hfirst]

section

variable {below : List (Frame g)}
  (hfollows : Follows final order ⟨⟨node, [], none⟩ :: below, p⟩)

include hfollows

/-- A node that is due, where none before it is, is the first. -/
theorem Quiet.firstDue {command : String} {rest : List String} (h : Quiet env world order p)
    (hongoing : Ongoing order p ⟨node, [], none⟩) (hmust : (p.marks.mark node).mustBuild = true)
    (hcommands : g.commands node = command :: rest) :
  g.FirstDue env world final node command
  := by
  obtain ⟨later, hlater⟩ := hfollows.exists_later
  have huptodate := hfollows.upToDate_iff hongoing h.abreast
  rw [h.world, hmust] at huptodate
  refine ⟨⟨by simp [hcommands], by simp [huptodate]⟩, ⟨order, later, hlater, h.notDue⟩, ?_⟩
  rw [hcommands, List.head?_cons]

/-- A node that does not have to be built is not due. -/
theorem Heralded.leave (h : Heralded env world final order p)
    (hongoing : Ongoing order p ⟨node, [], none⟩)
    (hmust : (p.marks.mark node).mustBuild = false) :
  Heralded env world final (order ++ [node]) (p.leave node)
  := by
  cases h with
  | quiet hquiet =>
    have hnode : (p.marks.mark node).visit = .inProgress :=
      (hfollows.inProgress_iff node).2 List.mem_cons_self
    have huptodate := (hfollows.upToDate_iff hongoing hquiet.abreast).2 hmust
    rw [hquiet.world] at huptodate
    apply Heralded.quiet
    constructor
    · intro other hother
      rcases List.mem_append.1 hother with hold | hnew
      · apply hquiet.notDue other hold
      · rw [List.mem_singleton.1 hnew]
        exact fun hdue => hdue.2 huptodate
    · apply hquiet.commands
    · apply hquiet.world
    · apply hquiet.abreast.leave (by simp [hnode])
  | begun hdue hfirst => exact .begun hdue hfirst

/-- A node that is rebuilt without commands is not due; and one with commands is the first that
is due, unless there was one before it. -/
theorem Heralded.rebuild {refreshed : Option Stamp} (h : Heralded env world final order p)
    (hongoing : Ongoing order p ⟨node, [], none⟩) (hmust : (p.marks.mark node).mustBuild = true)
    (hrebuilt : Progress.Rebuilt env node refreshed p q) :
  Heralded env world final (order ++ [node]) q
  := by
  cases h with
  | begun hdue hfirst => exact .of_append hdue hfirst hrebuilt.commands
  | quiet hquiet =>
    cases hcommands : g.commands node with
    | cons command rest =>
      apply Heralded.begun (hquiet.firstDue hfollows hongoing hmust hcommands)
      rw [hrebuilt.commands, hquiet.commands, hcommands]
      rfl
    | nil =>
      have hnode : (p.marks.mark node).visit = .inProgress :=
        (hfollows.inProgress_iff node).2 List.mem_cons_self
      have hworld : q.world = p.world := by
        rw [hrebuilt.world, hcommands]
        rfl
      have hsame : refreshed = (p.marks.mark node).modified := by
        have hfile := hrebuilt.file
        rw [hworld, hquiet.abreast node (by simp [hnode])] at hfile
        exact (Except.ok.inj hfile).symm
      apply Heralded.quiet
      constructor
      · intro other hother
        rcases List.mem_append.1 hother with hold | hnew
        · apply hquiet.notDue other hold
        · rw [List.mem_singleton.1 hnew]
          exact fun hdue => hdue.1 hcommands
      · rw [hrebuilt.commands, hquiet.commands, hcommands, List.append_nil]
      · rw [hworld, hquiet.world]
      · intro other hvisit
        rw [hrebuilt.mark] at hvisit ⊢
        rw [hworld]
        split
        · next heq =>
          rw [heq, hsame, Option.or_self]
          apply hquiet.abreast node (by simp [hnode])
        · next hne =>
          rw [if_neg hne] at hvisit
          apply hquiet.abreast other hvisit

end

/-- Every turn of the loop keeps that nothing due has been dealt with, or that the command due
first has been given first. -/
theorem kept_heralded (env : Environment World) (world : World) (final : List g.Id) :
  Kept env final fun order walk =>
    Histories order walk ∧ Heralded env world final order walk.progress
  := by
  apply (kept_histories env final).extend
  · intro order walk _ _ h
    match walk with
    | ⟨[], _⟩ => exact h
    | ⟨⟨_, _, none⟩ :: _, _⟩ => exact h
    | ⟨⟨node, _, some dependency⟩ :: _, _⟩ => exact h.compare node dependency
  · intro order walk order' next hfollows hhistories h hturn
    cases hturn with
    | pass _ => exact h
    | descend _ henter =>
      obtain ⟨found, hentered⟩ := Progress.entered_of_enter henter
      exact h.enter hentered
    | @leave node below p _ hfinish =>
      have hongoing := hhistories.ongoing _ List.mem_cons_self
      cases hmust : (p.marks.mark node).mustBuild with
      | false =>
        rw [Progress.eq_leave_of_finish hmust hfinish]
        exact h.leave hfollows hongoing hmust
      | true =>
        obtain ⟨refreshed, hrebuilt⟩ := Progress.rebuilt_of_finish hmust hfinish
        exact h.rebuild hfollows hongoing hmust hrebuilt

/-! ### How a walk fails -/

/-- A walk that fails gives no command more, or the commands of the node on top up to one of
them. -/
theorem Failure.commands {e : Stop BuildError} (h : Failure env walk e q) :
  ∃ added, q.commands = walk.progress.commands ++ added
  := by
  cases h with
  | enter _ henter =>
    obtain ⟨-, -, hcommands⟩ := Progress.enterFailure_of_enter henter
    exact ⟨[], by rw [hcommands, List.append_nil]⟩
  | finish hfinish =>
    obtain ⟨-, hfailure⟩ := Progress.finishFailure_of_finish hfinish
    cases hfailure with
    | command _ hbroken => exact ⟨_, hbroken.commands⟩
    | unreadable _ hcommands _ => exact ⟨_, hcommands⟩

/-- A walk over files that can be looked at does not fail before the command that is due first has
been given. -/
theorem Heralded.of_failure {e : Stop BuildError} (hpost : g.PostOrderOf root final)
    (henterable : ∀ node, g.Reaches root node → Enterable env world node)
    (hfollows : Follows final order walk) (hhistories : Histories order walk)
    (h : Heralded env world final order walk.progress) (hfailure : Failure env walk e q) :
  ∃ node command, g.FirstDue env world final node command ∧ q.commands.head? = some command
  := by
  cases h with
  | begun hdue hfirst =>
    obtain ⟨added, hcommands⟩ := hfailure.commands
    refine ⟨_, _, hdue, ?_⟩
    rw [hcommands, List.head?_append, hfirst, Option.some_or]
  | quiet hquiet =>
    cases hfailure with
    | enter _ henter =>
      have hreaches := hfollows.reaches_of_mem_pending hpost List.mem_cons_self
      have hnode := henterable _ hreaches
      rw [← hquiet.world] at hnode
      exact absurd henter hnode.enter_ne_error
    | @finish node below p _ _ hfinish =>
      obtain ⟨hmust, hfinishFailure⟩ := Progress.finishFailure_of_finish hfinish
      have hongoing := hhistories.ongoing _ List.mem_cons_self
      cases hcommands : g.commands node with
      | cons command rest =>
        refine ⟨node, command, hquiet.firstDue hfollows hongoing hmust hcommands, ?_⟩
        cases hfinishFailure with
        | unreadable _ hgiven _ =>
          rw [hgiven, hquiet.commands, hcommands]
          rfl
        | @command earlier _ _ _ hsplit hbroken =>
          rw [hbroken.commands, hquiet.commands, List.nil_append]
          rw [hcommands] at hsplit
          cases earlier with
          | nil | cons =>
            cases hsplit
            rfl
      | nil =>
        -- the world has not changed, so the file can still be looked at
        cases hfinishFailure with
        | command hsplit _ => simp [hcommands] at hsplit
        | unreadable hworld _ hfile =>
          obtain ⟨found, hfound, -⟩ :=
            henterable node (hfollows.reaches_of_mem_path hpost List.mem_cons_self)
          rw [hworld, hcommands, hquiet.world] at hfile
          cases hfound.symm.trans hfile

end Walk

/-! ### The first command of a build -/

section

variable {env : Environment World} {world : World} {root : g.Id}
  (hroot : (g.node root).declared = true) (hsurvey : survey env world g root = none)
  (hreadable : ∀ node, g.Reaches root node → ∃ found, env.modified world (g.name node) = .ok found)

include hroot hsurvey hreadable

/-- A build in which no node is due succeeds without a command, and any other one gives first the
command that is due first. -/
theorem due_cases_of_build :
  let run := build env g (Marks.clear g) world root
  ((∀ node, g.Reaches root node → ¬ g.IsDue env world node) ∧
      (∃ outcome, run.result = .ok outcome ∧ outcome.commandsRun = 0) ∧ run.commands = []) ∨
    ∃ order node command, g.PostOrderOf root order ∧ g.FirstDue env world order node command ∧
      run.commands.head? = some command
  := by
  intro run
  obtain ⟨order, hpost, -⟩ := exists_postOrderOf_of_survey hsurvey
  have henterable := Walk.enterable_of_survey hroot hsurvey hreadable
  have hkept := Walk.kept_heralded env world order
  have hstart : ∀ p, (Progress.start (Marks.clear g) world).enter env none root = (.ok (), p) →
      Walk.Histories [] ⟨[Walk.frame g root], p⟩ ∧ Walk.Heralded env world order [] p := by
    intro p henter
    obtain ⟨found, hentered⟩ := Progress.entered_of_enter henter
    have hquiet : Walk.Quiet env world [] (Progress.start (Marks.clear g) world) :=
      ⟨by simp, rfl, rfl, by simp [Progress.Abreast, Progress.start, Mark.clear]⟩
    exact ⟨Walk.histories_of_enter_start henter, (Walk.Heralded.quiet hquiet).enter hentered⟩
  cases hresult : run.result with
  | error e =>
    right
    rcases hkept.of_build_error hpost hstart hsurvey hresult with
      henter | ⟨done, last, hfollows, ⟨hhistories, hheralded⟩, hfailure⟩
    · exact absurd henter (henterable root .refl).enter_ne_error
    · obtain ⟨node, command, hdue, hfirst⟩ :=
        hheralded.of_failure hpost henterable hfollows hhistories hfailure
      exact ⟨order, node, command, hpost, hdue, hfirst⟩
  | ok outcome =>
    obtain ⟨-, ⟨-, hheralded⟩, houtcome⟩ := hkept.of_build hpost hstart hresult
    cases hheralded with
    | begun hdue hfirst => exact .inr ⟨order, _, _, hpost, hdue, hfirst⟩
    | quiet hquiet =>
      obtain ⟨-, hbooked, -⟩ := booked_of_build hpost hresult
      left
      refine ⟨?_, ⟨outcome, rfl, ?_⟩, hquiet.commands⟩
      · intro node hreaches
        apply hquiet.notDue node (hpost.mem_iff.2 hreaches)
      · rw [houtcome, hbooked.commandsRun, hquiet.commands]
        rfl

/-- A build from clear marks whose survey meets no error, and all of whose files can be looked at,
succeeds without giving a command if and only if in the world it begins with every node that has
commands is up to date: its file is there, and so are those of its dependencies, none of them
newer.  Otherwise it gives a command, and the first is the first command of the first node of the
post-order that has commands and is not up to date. -/
theorem commands_eq_nil_iff_of_build :
  let run := build env g (Marks.clear g) world root
  ((∃ outcome, run.result = .ok outcome ∧ outcome.commandsRun = 0) ∧ run.commands = [] ↔
    ∀ node, g.Reaches root node → g.commands node ≠ [] → g.UpToDate env world node) ∧
  ((¬ ∀ node, g.Reaches root node → g.commands node ≠ [] → g.UpToDate env world node) →
    ∃ order node command, g.PostOrderOf root order ∧ g.FirstDue env world order node command ∧
      run.commands.head? = some command)
  := by
  intro run
  rcases due_cases_of_build hroot hsurvey hreadable with
    ⟨hnone, hidle⟩ | ⟨order, node, command, hpost, hdue, hfirst⟩
  · have hall : ∀ node, g.Reaches root node → g.commands node ≠ [] →
        g.UpToDate env world node := by
      intro node hreaches hcommands
      by_contra hnot
      exact hnone node hreaches ⟨hcommands, hnot⟩
    exact ⟨iff_of_true hidle hall, fun hnot => absurd hall hnot⟩
  · have hnot : ¬ ∀ node, g.Reaches root node → g.commands node ≠ [] →
        g.UpToDate env world node := by
      intro hall
      obtain ⟨earlier, later, hsplit, -⟩ := hdue.first
      have hreaches : g.Reaches root node := hpost.mem_iff.1 (by simp [hsplit])
      exact hdue.due.2 (hall node hreaches hdue.due.1)
    have hgiven : run.commands ≠ [] := by
      intro hnil
      simp [run, hnil] at hfirst
    exact ⟨iff_of_false (fun hidle => hgiven hidle.2) hnot,
      fun _ => ⟨order, node, command, hpost, hdue, hfirst⟩⟩

end

/-- The right part of `diamond` is older than its source, and nothing before it is due. -/
theorem commands_eq_nil_iff_of_build_diamond :
  let run := build .touching Graph.diamond (Marks.clear Graph.diamond)
    ["app", "left", "source", "right"] Graph.diamondRoot
  (Graph.diamond.node Graph.diamondRoot).declared = true ∧
    survey .touching ["app", "left", "source", "right"] Graph.diamond Graph.diamondRoot = none ∧
    run.commands = ["right", "app"] ∧
    (¬ ∀ node, Graph.diamond.Reaches Graph.diamondRoot node → Graph.diamond.commands node ≠ [] →
      Graph.diamond.UpToDate .touching ["app", "left", "source", "right"] node) ∧
    ∃ order node, Graph.diamond.PostOrderOf Graph.diamondRoot order ∧
      Graph.diamond.FirstDue .touching ["app", "left", "source", "right"] order node "right"
  := by
  have hcommands : (build .touching Graph.diamond (Marks.clear Graph.diamond)
      ["app", "left", "source", "right"] Graph.diamondRoot).commands = ["right", "app"] := by
    cbv
  have hroot : (Graph.diamond.node Graph.diamondRoot).declared = true := by decide
  have hsurvey := survey_of_build result_build_diamond
  obtain ⟨hiff, hfirst⟩ := commands_eq_nil_iff_of_build hroot hsurvey fun _ _ => ⟨_, rfl⟩
  have hnot : ¬ ∀ node, Graph.diamond.Reaches Graph.diamondRoot node →
      Graph.diamond.commands node ≠ [] →
      Graph.diamond.UpToDate .touching ["app", "left", "source", "right"] node := by
    intro hall
    have hnil := (hiff.2 hall).2
    cases hcommands.symm.trans hnil
  obtain ⟨order, node, command, hpost, hdue, hhead⟩ := hfirst hnot
  have heq : some "right" = some command := (congrArg List.head? hcommands).symm.trans hhead
  cases heq
  exact ⟨hroot, hsurvey, hcommands, hnot, order, node, hpost, hdue⟩

end IncrementalBuild
