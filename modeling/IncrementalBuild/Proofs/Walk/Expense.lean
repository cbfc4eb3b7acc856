import IncrementalBuild.Proofs.Survey.Course
import IncrementalBuild.Proofs.Walk.Confinement
import IncrementalBuild.Proofs.Walk.Course
import IncrementalBuild.Proofs.Walk.Retry
import IncrementalBuild.Proofs.Walk.Staleness

/-!
# What a build spends

A build is finite work on any graph, with cycles or without, and from any marks, also those that
a failed build has left.  Its survey and its walk take no more turns than the root reaches nodes
and edges.  And on one node little is done: nothing before it is entered, one look at its file
while it lies on the path, and then its commands and a second look.  `Walk.Frugal` says this of a
walk under way; it does not matter whether the last operation of the walk fails.
-/

namespace IncrementalBuild

variable {g : Graph} {World : Type}

/-- The name of the file that is looked at. -/
def Action.file? : Action g → Option String
  | looked node _ => some (g.name node)
  | foundAbsent _ | foundOutdated .. | issued .. => none

/-! ### What is spent on one node -/

namespace Progress

variable {env : Environment World} {p q : Progress g World} {node other : g.Id} {looks : Nat}
  {commands : List String}

/-- The names of the file of a node, once for each look at it. -/
def looksAt (p : Progress g World) (node : g.Id) : List String :=
  (p.story node).filterMap Action.file?

/-- At most so many looks have been taken at the file of a node, and of its commands only some
from the beginning have been given. -/
structure Spends (p : Progress g World) (node : g.Id) (looks : Nat) (commands : List String) :
    Prop where
  looks : (p.looksAt node).length ≤ looks
  commands : p.commandsOf node <+: commands

theorem Spends.confined (h : p.Spends other looks commands) (hconfined : Confined node p q)
    (hother : other ≠ node) :
  q.Spends other looks commands
  := by
  have hstory := hconfined.story other hother
  constructor
  · rw [looksAt, hstory]
    exact h.looks
  · rw [commandsOf, hstory]
    exact h.commands

theorem Spends.mono {looks' : Nat} {commands' : List String} (h : p.Spends node looks commands)
    (hlooks : looks ≤ looks') (hcommands : commands <+: commands') :
  p.Spends node looks' commands'
  := ⟨h.looks.trans hlooks, h.commands.trans hcommands⟩

/-- On a node on which nothing has been done nothing has been spent. -/
theorem spends_of_story_eq_nil (h : p.story node = []) :
  p.Spends node 0 []
  := by constructor <;> simp [looksAt, commandsOf, h]

/-! ### One action -/

theorem looksAt_record_self (p : Progress g World) (action : Action g) :
  (p.record action).looksAt action.node = p.looksAt action.node ++ action.file?.toList
  := by
  cases hfile : action.file? <;> simp [looksAt, story, record, List.filter_append, hfile]

theorem commandsOf_record_self (p : Progress g World) (action : Action g) :
  (p.record action).commandsOf action.node = p.commandsOf action.node ++ action.command?.toList
  := by
  cases hcommand : action.command? <;>
    simp [commandsOf, story, record, List.filter_append, hcommand]

/-- A look is counted. -/
theorem Spends.looked (h : p.Spends node looks commands)
    (found : Except (Stop StatError) (Option Stamp)) :
  (p.record (.looked node found)).Spends node (looks + 1) commands
  := by
  have hlooks : (p.record (.looked node found)).looksAt node = p.looksAt node ++ [g.name node] :=
    looksAt_record_self p (.looked node found)
  have hcommands : (p.record (.looked node found)).commandsOf node = p.commandsOf node ++ [] :=
    commandsOf_record_self p (.looked node found)
  constructor
  · rw [hlooks, List.length_append]
    exact Nat.add_le_add_right h.looks 1
  · rw [hcommands, List.append_nil]
    exact h.commands

/-- To find a node stale costs nothing. -/
theorem Spends.found (h : p.Spends node looks commands) {action : Action g}
    (hfile : action.file? = none) (hcommand : action.command? = none) :
  (p.record action).Spends node looks commands
  := by
  by_cases hnode : node = action.node
  · subst hnode
    constructor
    · rw [looksAt_record_self, hfile, Option.toList_none, List.append_nil]
      exact h.looks
    · rw [commandsOf_record_self, hcommand, Option.toList_none, List.append_nil]
      exact h.commands
  · exact h.confined (confined_record p action) hnode

/-- A change of marks costs nothing. -/
theorem Spends.mark (h : p.Spends node looks commands) (id : g.Id) (f : Mark → Mark) :
  (p.mark id f).Spends node looks commands
  := ⟨h.looks, h.commands⟩

/-! ### One operation -/

theorem Spends.compare (h : p.Spends node looks commands) (id dependency : g.Id) :
  (p.compare id dependency).Spends node looks commands
  := by
  unfold Progress.compare
  split
  · exact h
  · split
    · exact (h.found rfl rfl).mark id _
    · exact h

/-- To enter a node costs one look at its file. -/
theorem spends_enter (env : Environment World) (parent? : Option g.Id)
    (hfresh : p.story node = []) :
  (p.enter env parent? node).2.Spends node 1 []
  := by
  have hlooked := (spends_of_story_eq_nil hfresh).looked
  unfold enter look
  cases env.modified p.world (g.name node) with
  | error e => exact hlooked (.error e)
  | ok found =>
    have hmarked :=
      (hlooked (.ok found)).mark node ({ · with visit := .inProgress, modified := found })
    simp only
    split
    · exact hmarked
    · split
      · exact (hmarked.found rfl rfl).mark node _
      · exact hmarked

/-- To execute commands costs the commands, up to the first that fails. -/
theorem spends_execute (env : Environment World) (commands : List String) {given : List String}
    (hlooks : (p.looksAt node).length ≤ looks) (hgiven : p.commandsOf node = given) :
  (p.execute env node commands).2.Spends node looks (given ++ commands)
  := by
  induction commands generalizing p given with
  | nil => exact ⟨hlooks, by rw [List.append_nil, ← hgiven]; exact List.prefix_rfl⟩
  | cons command rest ih =>
    have hsame : (p.record (.issued node command)).looksAt node = p.looksAt node ++ [] :=
      looksAt_record_self p (.issued node command)
    have hmore : (p.record (.issued node command)).commandsOf node
        = p.commandsOf node ++ [command] := commandsOf_record_self p (.issued node command)
    rw [List.append_nil] at hsame
    rw [hgiven] at hmore
    rw [List.append_cons]
    simp only [execute]
    split
    · exact ⟨hsame ▸ hlooks, hmore ▸ List.prefix_append _ _⟩
    · exact ih (hsame ▸ hlooks) hmore

/-- To finish a node costs its commands and one look at its file. -/
theorem Spends.finish (h : p.Spends node 1 []) (env : Environment World) :
  (p.finish env node).2.Spends node 2 (g.commands node)
  := by
  have hgiven : p.commandsOf node = [] := List.prefix_nil.1 h.commands
  have hexecute := spends_execute env (g.commands node) h.looks hgiven
  rw [List.nil_append] at hexecute
  unfold Progress.finish
  split
  · split
    · next herror =>
      rw [Graph.commands, herror] at hexecute
      exact hexecute.mono (by omega) List.prefix_rfl
    · next q hok =>
      rw [Graph.commands, hok] at hexecute
      have hpushed : ({ q with rebuilt := q.rebuilt.push node } : Progress g World).Spends node 1
          (g.commands node) := ⟨hexecute.looks, hexecute.commands⟩
      cases hfile : env.modified q.world (g.name node) with
      | error e =>
        rw [settle_of_error hfile]
        exact hpushed.looked (.error e)
      | ok found =>
        rw [settle_of_ok hfile]
        exact ((hpushed.looked (.ok found)).mark node _).mark node _
  · exact (h.mono (by omega) List.nil_prefix).mark node _

end Progress

/-! ### What a walk spends -/

namespace Walk

variable {env : Environment World} {walk next : Walk g World} {root : g.Id}
  {p q : Progress g World}

/-- Nothing has been done on nodes that have not been visited, one look has been taken at those
on the path, and no node has cost more than two looks and its commands. -/
structure Frugal (root : g.Id) (walk : Walk g World) : Prop where
  sound : walk.traversal.Sound root
  untouched : Untouched walk.progress
  onPath : ∀ node ∈ walk.path, walk.progress.Spends node 1 []
  all : ∀ node, walk.progress.Spends node 2 (g.commands node)

/-- What has been spent when the root has been entered, or could not be. -/
theorem spends_enter_start (env : Environment World) (marks : Marks g) (world : World)
    (parent? : Option g.Id) (root node : g.Id) :
  ((Progress.start marks world).enter env parent? root).2.Spends node 2 (g.commands node)
  := by
  by_cases hnode : node = root
  · rw [hnode]
    exact (Progress.spends_enter env parent? rfl).mono (by omega) List.nil_prefix
  · have hnothing : (Progress.start marks world).Spends node 0 [] :=
      Progress.spends_of_story_eq_nil rfl
    have hconfined := Progress.confined_enter env parent? root (.start marks world)
    exact (hnothing.confined hconfined hnode).mono (by omega) List.nil_prefix

namespace Frugal

theorem start {marks : Marks g} {world : World} {parent? : Option g.Id}
    (henter : (Progress.start marks world).enter env parent? root = (.ok (), p)) :
  Frugal root ⟨[frame g root], p⟩
  := by
  have huntouched : Untouched (Progress.start marks world) := fun _ _ => rfl
  have hroot : ((Progress.start marks world).enter env parent? root).2.Spends root 1 [] :=
    Progress.spends_enter env parent? rfl
  have hall := spends_enter_start env marks world parent? root
  rw [henter] at hroot hall
  obtain ⟨found, hentered⟩ := Progress.entered_of_enter henter
  refine ⟨?_, huntouched.affected (Progress.affects_of_entered hentered) (by simp [hentered.mark]),
    by simpa [path, frame] using hroot, hall⟩
  rw [traversal_of_enter henter]
  apply Traversal.sound_start

theorem paid (h : Frugal root walk) :
  Frugal root walk.paid
  := by
  match walk with
  | ⟨[], _⟩ => exact h
  | ⟨⟨_, _, none⟩ :: _, _⟩ => exact h
  | ⟨⟨node, pending, some dependency⟩ :: below, p⟩ =>
    obtain ⟨added, haffects⟩ := Progress.affects_compare p node dependency
    have hvisit : (p.marks.mark node).visit = .inProgress :=
      h.sound.inProgress node List.mem_cons_self
    refine ⟨?_, h.untouched.affected haffects (by simp [hvisit]), ?_, ?_⟩
    · rw [traversal_paid]
      exact h.sound
    · exact fun other hother => (h.onPath other hother).compare node dependency
    · exact fun other => (h.all other).compare node dependency

/-- What has been spent on all nodes, after an operation on one of them. -/
theorem all_of_confined {node : g.Id} (h : Frugal root walk)
    (hconfined : Progress.Confined node walk.progress q)
    (hnode : q.Spends node 2 (g.commands node)) :
  ∀ other, q.Spends other 2 (g.commands other)
  := by
  intro other
  by_cases heq : other = node
  · exact heq ▸ hnode
  · exact (h.all other).confined hconfined heq

/-- What has been spent on all nodes when one has been entered that had not been visited, or could
not be. -/
theorem all_enter {dependency : g.Id} (h : Frugal root walk)
    (hvisit : (walk.progress.marks.mark dependency).visit = .unvisited)
    (env : Environment World) (parent? : Option g.Id) :
  ∀ other, (walk.progress.enter env parent? dependency).2.Spends other 2 (g.commands other)
  := by
  have hdependency := Progress.spends_enter env parent? (h.untouched dependency hvisit)
  have hconfined := Progress.confined_enter env parent? dependency walk.progress
  exact h.all_of_confined hconfined (hdependency.mono (by omega) List.nil_prefix)

/-- What has been spent on all nodes when one on the path has been finished, or could not be. -/
theorem all_finish {node : g.Id} (h : Frugal root walk) (hnode : node ∈ walk.path)
    (env : Environment World) :
  ∀ other, (walk.progress.finish env node).2.Spends other 2 (g.commands other)
  := by
  have hconfined := Progress.confined_finish env node walk.progress
  exact h.all_of_confined hconfined ((h.onPath node hnode).finish env)

theorem move (h : Frugal root walk) (hmove : Move env walk next) :
  Frugal root next
  := by
  have hsound := h.sound
  have hnext := hmove.advance.sound hsound
  cases hmove with
  | pass => exact ⟨hnext, h.untouched, h.onPath, h.all⟩
  | @descend node dependency rest below p q hvisit henter =>
    have hdependency := Progress.spends_enter env (some node) (h.untouched dependency hvisit)
    have hconfined := Progress.confined_enter env (some node) dependency p
    have hall := h.all_enter hvisit env (some node)
    rw [henter] at hdependency hconfined hall
    obtain ⟨found, hentered⟩ := Progress.entered_of_enter henter
    refine ⟨hnext,
      h.untouched.affected (Progress.affects_of_entered hentered) (by simp [hentered.mark]), ?_,
      hall⟩
    refine List.forall_mem_cons.2 ⟨hdependency, ?_⟩
    intro other hother
    -- a node on the path is in progress, so it is not the one that is entered
    have hne : other ≠ dependency := by
      rintro rfl
      have hprogress : (p.marks.mark other).visit = .inProgress :=
        hsound.inProgress other (by simpa [traversal, Traversal.path, tasks, path] using hother)
      cases hvisit.symm.trans hprogress
    exact (h.onPath other hother).confined hconfined hne
  | @leave node below p q hfinish =>
    have hconfined := Progress.confined_finish env node p
    have hall := h.all_finish List.mem_cons_self env
    rw [hfinish] at hconfined hall
    obtain ⟨added, haffects⟩ := Progress.affects_finish hfinish
    refine ⟨hnext, h.untouched.affected haffects (by simp [Progress.visit_finish_self hfinish]),
      ?_, hall⟩
    intro other hother
    have hnodup : (node :: below.map (·.node)).Nodup := by
      simpa [traversal, Traversal.path, tasks, Function.comp_def] using hsound.nodup
    have hne : other ≠ node := by
      rintro rfl
      exact (List.nodup_cons.1 hnodup).1 hother
    exact (h.onPath other (List.mem_cons_of_mem _ hother)).confined hconfined hne

/-- A turn that ends the walk with an error spends no more than one that does not. -/
theorem halt {e : Stop BuildError} (h : Frugal root walk) (hhalt : Halt env walk e q) :
  ∀ node, q.Spends node 2 (g.commands node)
  := by
  cases hhalt with
  | cycle => exact h.all
  | failure hfailure =>
    cases hfailure with
    | @enter node dependency rest below p q e hvisit henter =>
      have hall := h.all_enter hvisit env (some node)
      rw [henter] at hall
      exact hall
    | @finish node below p q e hfinish =>
      have hall := h.all_finish List.mem_cons_self env
      rw [hfinish] at hall
      exact hall

end Frugal

theorem Frugal.walk_cases (env : Environment World) (marks : Marks g) (world : World)
    (root : g.Id) :
  (∃ e p, (Progress.start marks world).enter env none root = (.error e, p) ∧
      IncrementalBuild.walk env g root (Progress.start marks world) = (.error e, p)) ∨
    (∃ p, IncrementalBuild.walk env g root (Progress.start marks world) = (.ok (), p) ∧
      Frugal root ⟨[], p⟩) ∨
    ∃ last e p, IncrementalBuild.walk env g root (Progress.start marks world) = (.error e, p) ∧
      Frugal root last ∧ Halt env last e p
  := Walk.walk_cases (fun _ => .start) (fun _ h => h.paid) (fun _ _ h => h.move)

/-- What a walk has spent on a node when it has ended, no matter how. -/
theorem spends_walk (env : Environment World) (marks : Marks g) (world : World)
    (root node : g.Id) :
  (IncrementalBuild.walk env g root (.start marks world)).2.Spends node 2 (g.commands node)
  := by
  rcases Frugal.walk_cases env marks world root with
    ⟨e, p, henter, hwalk⟩ | ⟨p, hwalk, hfrugal⟩ | ⟨last, e, p, hwalk, hfrugal, hhalt⟩
  · have hstart := spends_enter_start env marks world none root node
    rw [hwalk]
    rw [henter] at hstart
    exact hstart
  · rw [hwalk]
    exact hfrugal.all node
  · rw [hwalk]
    exact hfrugal.halt hhalt node

end Walk

/-! ### What a build spends -/

theorem spends_build (env : Environment World) (marks : Marks g) (world : World)
    (root node : g.Id) :
  (build env g marks world root).progress.Spends node 2 (g.commands node)
  := by
  have hstart : (Progress.start marks world).Spends node 2 (g.commands node) :=
    (Progress.spends_of_story_eq_nil rfl).mono (by omega) List.nil_prefix
  have hwalk := Walk.spends_walk env marks world root node
  unfold build
  split
  · exact hstart
  · split
    · exact hstart
    · cases hresult : walk env g root (.start marks world) with
      | mk result p =>
        rw [hresult] at hwalk
        cases result with
        | error e => simpa only [hresult] using hwalk
        | ok => simpa only [hresult] using hwalk

/-- The file of a name is looked at as often as that of its node. -/
theorem Progress.count_file?_le (p : Progress g World) {looks : Nat}
    (h : ∀ node, (p.looksAt node).length ≤ looks) (name : String) :
  (p.trace.toList.filterMap Action.file?).count name ≤ looks
  := by
  by_cases hname : ∃ node, g.name node = name
  · obtain ⟨node, rfl⟩ := hname
    have hlooks : (p.trace.toList.filterMap Action.file?).filter (· == g.name node)
        = p.looksAt node := by
      apply filter_filterMap_of_node
      intro action file hfile
      cases action with
      | looked other found =>
        cases hfile
        rw [beq_iff_eq, g.name_injective.eq_iff]
        rfl
      | foundAbsent | foundOutdated | issued => cases hfile
    rw [List.count_eq_length_filter, hlooks]
    exact h node
  · rw [List.count_eq_zero_of_not_mem]
    · exact Nat.zero_le _
    · intro hmem
      obtain ⟨action, -, hfile⟩ := List.mem_filterMap.1 hmem
      cases action with
      | looked other found => exact hname ⟨other, Option.some_inj.1 hfile⟩
      | foundAbsent | foundOutdated | issued => cases hfile

/-- Whatever the graph, the marks, the world and the commands are, a build is over soon: its
survey and its walk take at most one turn for each node that the root reaches and for each edge
that leaves such a node, and no node comes onto the path of either of them twice.  The walk looks
at the file of a name at most twice, and gives the commands of a node at most once each, in
order. -/
theorem linear_of_build (env : Environment World) (g : Graph) (marks : Marks g) (world : World)
    (root : g.Id) :
  let surveyed := (Survey.start root).course env world
  let walked := Walk.courseFrom env root (Progress.start marks world)
  let progress := (build env g marks world root).progress
  (surveyed.2 = survey env world g root ∧
      Traversal.Linear root (surveyed.1.map Survey.traversal)) ∧
    (walked.2 = walk env g root (Progress.start marks world) ∧
      Traversal.Linear root (walked.1.map Walk.traversal)) ∧
    (∀ name, (progress.trace.toList.filterMap Action.file?).count name ≤ 2) ∧
    ∀ node, progress.commandsOf node <+: g.commands node
  := by
  intro surveyed walked progress
  have hspends := spends_build env marks world root
  refine ⟨⟨Survey.snd_course env world _, Survey.linear_course env world root⟩,
    ⟨Walk.snd_courseFrom env root _, Walk.linear_courseFrom env root _⟩, ?_, ?_⟩
  · exact progress.count_file?_le fun node => (hspends node).looks
  · exact fun node => (hspends node).commands

end IncrementalBuild
