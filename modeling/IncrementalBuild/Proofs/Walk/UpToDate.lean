import IncrementalBuild.Proofs.Walk.Failure
import IncrementalBuild.Proofs.Walk.Staleness

/-!
# Builds that have nothing to do

A node is up to date in a world if its file is there, and the files of its dependencies, and
none of these is newer.  A build from clear marks of a root that reaches no cycle, and nothing
but nodes that are up to date, looks at files and does nothing else: `Walk.Idle` is what every
turn of its loop keeps.
-/

namespace IncrementalBuild

variable {g : Graph} {World : Type}

/-- The file of a node is there, and so are the files of its dependencies, of which none is
newer. -/
def Graph.UpToDate (g : Graph) (env : Environment World) (world : World) (node : g.Id) : Prop :=
  ∃ own, env.modified world (g.name node) = .ok (some own) ∧
    ∀ dependency, g.Needs node dependency →
      ∃ theirs, env.modified world (g.name dependency) = .ok (some theirs) ∧ ¬ own < theirs

/-! ### What has been seen of the files -/

namespace Progress

variable {env : Environment World} {p q : Progress g World} {node : g.Id}

/-- What has been seen of the files of the nodes visited is what there is. -/
def Abreast (env : Environment World) (p : Progress g World) : Prop :=
  ∀ node, (p.marks.mark node).visit ≠ .unvisited →
    env.modified p.world (g.name node) = .ok (p.marks.mark node).modified

theorem Abreast.enter {found : Option Stamp} (h : Abreast env p)
    (hentered : Entered env node found p q) :
  Abreast env q
  := by
  intro other hvisit
  rw [hentered.mark] at hvisit
  rw [hentered.mark, hentered.world]
  split
  · next heq => rw [heq, hentered.file]
  · next hne =>
    rw [if_neg hne] at hvisit
    exact h other hvisit

theorem Abreast.compare (h : Abreast env p) (node dependency : g.Id) :
  Abreast env (p.compare node dependency)
  := by
  intro other hvisit
  rw [visit_compare] at hvisit
  rw [modified_compare, world_compare]
  exact h other hvisit

theorem Abreast.leave (h : Abreast env p) (hnode : (p.marks.mark node).visit ≠ .unvisited) :
  Abreast env (p.leave node)
  := by
  intro other hvisit
  rw [mark_leave] at hvisit ⊢
  split
  · next heq =>
    rw [heq]
    exact h node hnode
  · next hne =>
    rw [if_neg hne] at hvisit
    exact h other hvisit

/-- A node that is up to date is not out of date beside a dependency. -/
theorem Abreast.not_isOutdated {dependency : g.Id} (h : Abreast env p)
    (hnode : (p.marks.mark node).visit ≠ .unvisited)
    (hdependency : (p.marks.mark dependency).visit ≠ .unvisited)
    (hneeds : g.Needs node dependency) (huptodate : g.UpToDate env p.world node) :
  isOutdated (p.marks.mark node).modified (p.marks.mark dependency).modified = false
  := by
  obtain ⟨own, hown, hall⟩ := huptodate
  obtain ⟨theirs, htheirs, hnewer⟩ := hall dependency hneeds
  have hseen := h node hnode
  have hseen' := h dependency hdependency
  rw [hown] at hseen
  rw [htheirs] at hseen'
  rw [← Except.ok.inj hseen, ← Except.ok.inj hseen']
  exact decide_eq_false hnewer

end Progress

/-! ### A walk that does nothing but look -/

namespace Walk

variable {env : Environment World} {root node : g.Id} {final order : List g.Id} {world : World}
  {walk : Walk g World} {p q : Progress g World}

/-- A node needs the dependency it is yet to be compared with, and those it has yet to deal
with. -/
theorem Ongoing.needs {frame : Frame g} {dependency : g.Id} (h : Ongoing order p frame)
    (hmem : dependency ∈ frame.resolved.toList ++ frame.pending) :
  g.Needs frame.node dependency
  := by
  obtain ⟨found, compared, hsplit, -⟩ := h
  rw [Graph.Needs, hsplit]
  exact List.mem_append_right _ hmem

/-- A node on the way and the dependency it is yet to be compared with have been visited. -/
theorem Follows.visit_ne_unvisited {pending : List g.Id} {dependency : g.Id}
    {below : List (Frame g)}
    (hfollows : Follows final order ⟨⟨node, pending, some dependency⟩ :: below, p⟩)
    (h : Histories order ⟨⟨node, pending, some dependency⟩ :: below, p⟩) :
  (p.marks.mark node).visit ≠ .unvisited ∧ (p.marks.mark dependency).visit ≠ .unvisited
  := by
  have hnode : (p.marks.mark node).visit = .inProgress :=
    (hfollows.inProgress_iff node).2 List.mem_cons_self
  have hdependency : (p.marks.mark dependency).visit = .done :=
    (hfollows.done_iff dependency).2 (h.resolved _ rfl dependency rfl)
  simp [hnode, hdependency]

/-- Nothing but looking at files has been done. -/
structure Idle (env : Environment World) (world : World) (p : Progress g World) : Prop where
  world : p.world = world
  fresh : ∀ node, (p.marks.mark node).mustBuild = false
  abreast : p.Abreast env

theorem idle_start (env : Environment World) (world : World) :
  Idle env world (Progress.start (Marks.clear g) world)
  where
  world := rfl
  fresh := by simp [Progress.start, Mark.clear]
  abreast := by simp [Progress.Abreast, Progress.start, Mark.clear]

theorem Idle.enter {found : Option Stamp} (h : Idle env world p)
    (huptodate : g.UpToDate env world node) (hentered : Progress.Entered env node found p q) :
  Idle env world q
  where
  world := by rw [hentered.world, h.world]
  fresh := by
    obtain ⟨own, hown, -⟩ := huptodate
    have hfile := hentered.file
    rw [h.world, hown] at hfile
    intro other
    rw [hentered.mark, ← Except.ok.inj hfile]
    split
    · simp [h.fresh]
    · exact h.fresh other
  abreast := h.abreast.enter hentered

theorem Idle.leave (h : Idle env world p) (hnode : (p.marks.mark node).visit ≠ .unvisited) :
  Idle env world (p.leave node)
  where
  world := h.world
  fresh := by
    intro other
    rw [Progress.mark_leave]
    split
    · exact h.fresh node
    · exact h.fresh other
  abreast := h.abreast.leave hnode

/-- A node that is up to date can be entered. -/
theorem enter_ne_error_of_upToDate {parent? : Option g.Id} {e : Stop BuildError}
    (huptodate : g.UpToDate env p.world node) :
  p.enter env parent? node ≠ (.error e, q)
  := by
  obtain ⟨own, hown, -⟩ := huptodate
  intro henter
  obtain ⟨hfailure, -⟩ := Progress.enterFailure_of_enter henter
  cases hfailure with
  | unreadable hfile => cases hown.symm.trans hfile
  | missing _ hfile => cases hown.symm.trans hfile

section

variable (hall : ∀ node, g.Reaches root node → g.UpToDate env world node)
  (hpost : g.PostOrderOf root final)

include hall hpost

/-- Where all that the root reaches is up to date, every turn of the loop does nothing but
look. -/
theorem kept_idle :
  Kept env final fun order walk => Histories order walk ∧ Idle env world walk.progress
  := by
  apply (kept_histories env final).extend
  · intro order walk hfollows hhistories hidle
    match walk with
    | ⟨[], _⟩ => exact hidle
    | ⟨⟨_, _, none⟩ :: _, _⟩ => exact hidle
    | ⟨⟨node, pending, some dependency⟩ :: below, p⟩ =>
      have hreaches := hfollows.reaches_of_mem_path hpost List.mem_cons_self
      have hneeds := (hhistories.ongoing _ List.mem_cons_self).needs List.mem_cons_self
      obtain ⟨hnode, hdependency⟩ := hfollows.visit_ne_unvisited hhistories
      have huptodate := hall node hreaches
      rw [← hidle.world] at huptodate
      have houtdated := hidle.abreast.not_isOutdated hnode hdependency hneeds huptodate
      have hcompare := p.compare_of_not_outdated node dependency (hidle.fresh node) houtdated
      change Idle env world (p.compare node dependency)
      rw [hcompare]
      exact hidle
  · intro order walk order' next hfollows hhistories hidle hturn
    cases hturn with
    | pass _ => exact hidle
    | descend _ henter =>
      obtain ⟨found, hentered⟩ := Progress.entered_of_enter henter
      have hreaches := hfollows.reaches_of_mem_pending hpost List.mem_cons_self
      exact hidle.enter (hall _ hreaches) hentered
    | @leave node _ _ _ hfinish =>
      rw [Progress.eq_leave_of_finish (hidle.fresh node) hfinish]
      apply hidle.leave
      simp [(hfollows.inProgress_iff node).2 List.mem_cons_self]

/-- An idle walk does not fail. -/
theorem Idle.not_failure {e : Stop BuildError} (hfollows : Follows final order walk)
    (hidle : Idle env world walk.progress) :
  ¬ Failure env walk e q
  := by
  intro hfailure
  cases hfailure with
  | enter _ henter =>
    have huptodate := hall _ (hfollows.reaches_of_mem_pending hpost List.mem_cons_self)
    rw [← hidle.world] at huptodate
    exact enter_ne_error_of_upToDate huptodate henter
  | @finish node _ _ _ _ hfinish =>
    have hfresh := hidle.fresh node
    rw [(Progress.finishFailure_of_finish hfinish).1] at hfresh
    cases hfresh

end

end Walk

/-- A survey of a root that reaches no cycle, and nothing but nodes that are up to date, meets
no error. -/
theorem survey_of_upToDate {env : Environment World} {world : World} {root : g.Id}
    (hcycle : ¬ g.ReachesCycle root)
    (hall : ∀ node, g.Reaches root node → g.UpToDate env world node) :
  survey env world g root = none
  := by
  rw [Option.eq_none_iff_forall_ne_some]
  intro e he
  rcases (justified_of_survey he).1.exists_unmet with hreaches | ⟨node, hreaches, hunmet⟩
  · exact hcycle hreaches
  · obtain ⟨own, hown, -⟩ := hall node hreaches
    exact hunmet (.inr ⟨own, hown⟩)

/-- A build from clear marks of a root whose survey meets no error, and which reaches nothing
but nodes that are up to date, succeeds without executing a command. -/
theorem build_of_upToDate {env : Environment World} {world : World} {root : g.Id}
    (hsurvey : survey env world g root = none)
    (hall : ∀ node, g.Reaches root node → g.UpToDate env world node) :
  let run := build env g (Marks.clear g) world root
  run.result = .ok ⟨g.name root, 0, []⟩ ∧ run.commands = [] ∧ run.progress.world = world
  := by
  intro run
  obtain ⟨order, hpost, -⟩ := exists_postOrderOf_of_survey hsurvey
  have hstart : ∀ p, (Progress.start (Marks.clear g) world).enter env none root = (.ok (), p) →
      Walk.Histories [] ⟨[Walk.frame g root], p⟩ ∧ Walk.Idle env world p := by
    intro p henter
    obtain ⟨found, hentered⟩ := Progress.entered_of_enter henter
    exact ⟨Walk.histories_of_enter_start henter,
      (Walk.idle_start env world).enter (hall root .refl) hentered⟩
  obtain ⟨hresult, -, hidle⟩ := (Walk.kept_idle hall hpost).result_of_build hpost hstart hsurvey
    (fun _ _ => Walk.enter_ne_error_of_upToDate (hall root .refl))
    (fun _ _ _ _ hfollows hinv => hinv.2.not_failure hall hpost hfollows)
  obtain ⟨-, hbooked, -⟩ := booked_of_build hpost hresult
  have hnone : run.progress.rebuilt.toList = [] := by
    rw [hbooked.rebuilt, List.filter_eq_nil_iff]
    intro node _
    simp [Progress.IsStale, hidle.fresh node]
  have hcommands : run.commands = [] := by
    have hflat := hbooked.commands
    rw [hnone] at hflat
    exact hflat
  have hcount : run.progress.commandsRun = 0 := by
    rw [hbooked.commandsRun]
    exact congrArg List.length hcommands
  refine ⟨?_, hcommands, hidle.world⟩
  rw [hresult, hcount, hnone, List.map_nil]

end IncrementalBuild
