import IncrementalBuild.Proofs.Walk.Confinement
import IncrementalBuild.Proofs.Walk.Retry

/-!
# What is done stays done

A walk does operations on nodes that are not done only.  It is `Walk.Tidy` if the nodes on its
path are in progress and a dependency of such a node is yet to be dealt with, or done, or on the
path itself.  When a node is left it has nothing to be dealt with, and if its root reaches no
cycle none of its dependencies lies on the path; so they are done.  Hence a build upholds the
marks it began with, whatever it comes to.

`Onward` are builds that go on from the marks of earlier ones, without these being cleared.
-/

namespace IncrementalBuild

variable {g : Graph} {World : Type}

/-! ### Walks that begin with any marks -/

namespace Walk

variable {env : Environment World} {root : g.Id} {marks : Marks g} {walk next : Walk g World}
  {p : Progress g World}

/-- A walk upholds the marks it began with.  The nodes on its path are in progress, each once,
and a dependency of such a node is yet to be dealt with, or done, or on the path itself. -/
structure Tidy (root : g.Id) (marks : Marks g) (walk : Walk g World) : Prop
    extends Way root walk where
  upholds : walk.progress.Upholds marks
  fresh : walk.progress.Fresh marks
  silent : walk.progress.Silent
  nodup : walk.path.Nodup
  inProgress : ∀ node ∈ walk.path, (walk.progress.marks.mark node).visit = .inProgress
  owed : ∀ task ∈ walk.tasks, ∀ dependency, g.Needs task.1 dependency →
    dependency ∈ task.2 ∨ (walk.progress.marks.mark dependency).visit = .done ∨
      dependency ∈ walk.path

namespace Tidy

/-- The node on top is in progress. -/
theorem visit_top {node : g.Id} {pending : List g.Id} {resolved : Option g.Id}
    {below : List (Frame g)} (h : Tidy root marks ⟨⟨node, pending, resolved⟩ :: below, p⟩) :
  (p.marks.mark node).visit = .inProgress
  := h.inProgress node List.mem_cons_self

theorem paid (h : Tidy root marks walk) :
  Tidy root marks walk.paid
  := by
  match walk with
  | ⟨[], _⟩ => exact h
  | ⟨⟨_, _, none⟩ :: _, _⟩ => exact h
  | ⟨⟨node, pending, some dependency⟩ :: below, p⟩ =>
    have hnode : (p.marks.mark node).visit ≠ .done := by simp [h.visit_top]
    refine ⟨h.toWay.paid, h.upholds.compare hnode dependency, ?_, h.silent.compare node dependency,
      h.nodup, ?_, ?_⟩
    · apply h.fresh.of_rebuilt_eq (Progress.rebuilt_compare p node dependency)
      simp [Progress.visit_compare]
    · simpa using h.inProgress
    · simpa using h.owed

/-- A walk from a root that is not done begins tidily. -/
theorem start {world : World} (hsettled : marks.Settled) (hroot : (marks.mark root).visit ≠ .done)
    (henter : (Progress.start marks world).enter env none root = (.ok (), p)) :
  Tidy root marks ⟨[frame g root], p⟩
  := by
  obtain ⟨found, hentered⟩ := Progress.entered_of_enter henter
  have hsilent : (Progress.start marks world).Silent := fun _ _ => rfl
  refine ⟨way_start root p, (Progress.upholds_start hsettled world).enter hroot henter, ?_,
    hsilent.enter hentered hroot, ?_, ?_, ?_⟩
  · exact (Progress.fresh_start marks world).of_rebuilt_eq hentered.rebuilt
      fun _ => hentered.done hroot
  · simp [path, frame]
  · simp [path, frame, hentered.mark]
  · simp +contextual [tasks, path, frame, Graph.Needs]

/-- If the root reaches no cycle, every move of the loop keeps a walk tidy. -/
theorem move (hacyclic : ¬ g.ReachesCycle root) (h : Tidy root marks walk)
    (hmove : Move env walk next) :
  Tidy root marks next
  := by
  have hway := h.toWay.move hmove
  have howed := h.owed
  cases hmove with
  | @pass node dependency rest below p hvisit =>
    refine ⟨hway, h.upholds, h.fresh, h.silent, h.nodup, h.inProgress, ?_⟩
    simp only [tasks, List.map_cons, List.forall_mem_cons] at howed ⊢
    refine ⟨fun other hneeds => ?_, howed.2⟩
    rcases howed.1 other hneeds with hmem | hother
    · rcases List.mem_cons.1 hmem with rfl | hmem
      · exact .inr (.inl hvisit)
      · exact .inl hmem
    · exact .inr hother
  | @descend node dependency rest below p q hvisit henter =>
    obtain ⟨found, hentered⟩ := Progress.entered_of_enter henter
    have hdependency : (p.marks.mark dependency).visit ≠ .done := by simp [hvisit]
    have hnew : dependency ∉ node :: below.map (·.node) := by
      intro hmem
      cases hvisit.symm.trans (h.inProgress dependency hmem)
    refine ⟨hway, h.upholds.enter hdependency henter, ?_, h.silent.enter hentered hdependency,
      List.nodup_cons.2 ⟨hnew, h.nodup⟩, ?_, ?_⟩
    · exact h.fresh.of_rebuilt_eq hentered.rebuilt fun _ => hentered.done hdependency
    · intro other hother
      rw [hentered.mark]
      split
      · rfl
      · next hne => exact h.inProgress other ((List.mem_cons.1 hother).resolve_left hne)
    · have hlater {other : g.Id} (hother : (p.marks.mark other).visit = .done ∨
          other ∈ node :: below.map (·.node)) :
          (q.marks.mark other).visit = .done ∨ other ∈ dependency :: node :: below.map (·.node) :=
        hother.imp (hentered.done hdependency) (List.mem_cons_of_mem _)
      simp only [tasks, frame, path, List.map_cons, List.forall_mem_cons] at howed ⊢
      refine ⟨fun other hneeds => .inl hneeds, fun other hneeds => ?_,
        fun task htask other hneeds => (howed.2 task htask other hneeds).imp_right hlater⟩
      rcases howed.1 other hneeds with hmem | hother
      · rcases List.mem_cons.1 hmem with rfl | hmem
        · exact .inr (.inr List.mem_cons_self)
        · exact .inl hmem
      · exact .inr (hlater hother)
  | @leave node below p q hfinish =>
    have hnode : (p.marks.mark node).visit ≠ .done := by simp [h.visit_top]
    have hold : (marks.mark node).visit ≠ .done := fun hold =>
      hnode (h.upholds.kept node hold ▸ hold)
    have hnodup := List.nodup_cons.1 h.nodup
    simp only [tasks, path, List.map_cons, List.forall_mem_cons] at howed
    -- nothing is left to be dealt with, and an edge to the path would close a cycle
    have hdependencies : ∀ dependency, g.Needs node dependency →
        (p.marks.mark dependency).visit = .done := by
      intro dependency hneeds
      rcases howed.1 dependency hneeds with hmem | hdone | hmem
      · cases hmem
      · exact hdone
      · exact absurd hmem (h.toWay.not_mem_path hacyclic hneeds)
    refine ⟨hway, h.upholds.finish hnode hdependencies (h.silent node hnode) hfinish,
      h.fresh.finish hnode hold hfinish, h.silent.finish hfinish, hnodup.2, ?_, ?_⟩
    · intro other hother
      have hne : other ≠ node := fun heq => hnodup.1 (heq ▸ hother)
      rw [Progress.mark_finish_of_ne hfinish hne]
      exact h.inProgress other (List.mem_cons_of_mem _ hother)
    · intro task htask other hneeds
      rcases howed.2 task htask other hneeds with hmem | hdone | hmem
      · exact .inl hmem
      · exact .inr (.inl (Progress.done_finish hfinish hdone))
      · rcases List.mem_cons.1 hmem with rfl | hmem
        · exact .inr (.inl (Progress.visit_finish_self hfinish))
        · exact .inr (.inr hmem)

/-- Marks are upheld also when a walk comes to a halt. -/
theorem upholds_of_halt {e : Stop BuildError} (h : Tidy root marks walk)
    (hhalt : Halt env walk e p) :
  p.Upholds marks
  := by
  cases hhalt with
  | cycle => exact h.upholds
  | failure hfailure =>
    cases hfailure with
    | enter hvisit henter => exact h.upholds.enter (by simp [hvisit]) henter
    | finish hfinish => exact h.upholds.finish_error (by simp [h.visit_top]) hfinish

end Tidy

end Walk

/-! ### A build that begins with any marks -/

section

variable {env : Environment World} {world : World} {marks : Marks g} {root : g.Id}

/-- How a build ends that begins with any marks in which the dependencies of what is done are
done. -/
theorem Walk.Tidy.walk_cases (hsettled : marks.Settled)
    (hsurvey : survey env world g root = none) (hroot : (marks.mark root).visit ≠ .done) :
  (∃ e p, (Progress.start marks world).enter env none root = (.error e, p) ∧
      walk env g root (Progress.start marks world) = (.error e, p)) ∨
    (∃ p, walk env g root (Progress.start marks world) = (.ok (), p) ∧
      Tidy root marks ⟨[], p⟩) ∨
    ∃ last e p, walk env g root (Progress.start marks world) = (.error e, p) ∧
      Tidy root marks last ∧ Halt env last e p
  := by
  obtain ⟨order, hpost, -⟩ := exists_postOrderOf_of_survey hsurvey
  exact Walk.walk_cases (fun _ => .start hsettled hroot) (fun _ h => h.paid)
    fun _ _ h => h.move hpost.not_reachesCycle

/-- Whatever a build comes to, it upholds the marks it began with. -/
theorem upholds_of_build (env : Environment World) (world : World) (root : g.Id)
    (hsettled : marks.Settled) :
  (build env g marks world root).progress.Upholds marks
  := by
  have hstart := Progress.upholds_start hsettled world
  cases hsurvey : survey env world g root with
  | some e =>
    simp only [build, hsurvey]
    exact hstart
  | none =>
    simp only [build, hsurvey]
    split
    · exact hstart
    · next hroot =>
      rcases Walk.Tidy.walk_cases hsettled hsurvey hroot with
        ⟨e, p, henter, hwalk⟩ | ⟨p, hwalk, htidy⟩ | ⟨last, e, p, hwalk, htidy, hhalt⟩
      · simp only [hwalk]
        exact hstart.enter hroot henter
      · simp only [hwalk]
        exact htidy.upholds
      · simp only [hwalk]
        exact htidy.upholds_of_halt hhalt

/-- A build that succeeds names the nodes it has rebuilt, which were not done before. -/
theorem fresh_of_build {outcome : Outcome} (hsettled : marks.Settled)
    (hok : (build env g marks world root).result = .ok outcome) :
  outcome.rebuilt = (build env g marks world root).progress.rebuilt.toList.map g.name ∧
    (build env g marks world root).progress.Fresh marks
  := by
  have hsurvey := survey_of_build hok
  simp only [build, hsurvey] at hok ⊢
  split at hok
  · next hdone =>
    cases hok
    rw [if_pos hdone]
    exact ⟨rfl, Progress.fresh_start marks world⟩
  · next hdone =>
    rw [if_neg hdone]
    rcases Walk.Tidy.walk_cases hsettled hsurvey hdone with
      ⟨e, p, -, hwalk⟩ | ⟨p, hwalk, htidy⟩ | ⟨last, e, p, hwalk, -, -⟩
    all_goals simp only [hwalk] at hok ⊢; cases hok
    exact ⟨rfl, htidy.fresh⟩

theorem fresh_of_buildTarget {target : Option String} {outcome : Outcome}
    (hsettled : marks.Settled) (hok : (buildTarget env g marks world target).result = .ok outcome) :
  outcome.rebuilt = (buildTarget env g marks world target).progress.rebuilt.toList.map g.name ∧
    (buildTarget env g marks world target).progress.Fresh marks
  := by
  unfold buildTarget at hok ⊢
  split at hok
  · cases hok
  · exact fresh_of_build hsettled hok

theorem upholds_of_buildTarget (env : Environment World) (world : World) (target : Option String)
    (hsettled : marks.Settled) :
  (buildTarget env g marks world target).progress.Upholds marks
  := by
  unfold buildTarget
  split
  · exact Progress.upholds_start hsettled world
  · exact upholds_of_build env world _ hsettled

end

/-! ### Builds that go on -/

/-- Builds of a graph have gone on from some marks, in whatever world and environment: their
results, all that they have done, and the marks they have left. -/
inductive Onward (g : Graph) (marks : Marks g) :
    List (Except (Stop BuildError) Outcome) → List (Action g) → Marks g → Prop
  | stop : Onward g marks [] [] marks
  | build {results : List (Except (Stop BuildError) Outcome)} {trace : List (Action g)}
      {between : Marks g} {World : Type} (env : Environment World) (world : World)
      (target : Option String) (h : Onward g marks results trace between) :
    Onward g marks (results ++ [(buildTarget env g between world target).result])
      (trace ++ (buildTarget env g between world target).progress.trace.toList)
      (buildTarget env g between world target).progress.marks

/-- The names that a build reports as rebuilt. -/
def rebuiltNames : Except (Stop BuildError) Outcome → List String
  | .ok outcome => outcome.rebuilt
  | .error _ => []

section

variable {earlier later results : List (Except (Stop BuildError) Outcome)} {trace : List (Action g)}
  {marks marks' : Marks g}

/-- Builds that go on after others have been made after them. -/
theorem Succession.onward (h : Succession g earlier marks)
    (hlater : Onward g marks later trace marks') :
  Succession g (earlier ++ later) marks'
  := by
  induction hlater with
  | stop => simpa using h
  | build env world target _ ih =>
    rw [← List.append_assoc]
    exact ih.build env world target

/-- However builds have ended, the dependencies of what is done are done. -/
theorem Succession.settled (h : Succession g results marks) :
  marks.Settled
  := by
  induction h with
  | clear =>
    intro node dependency hdone
    simp [Mark.clear] at hdone
  | build env world target _ ih => exact (upholds_of_buildTarget env world target ih).settled

/-- What is done is as it was after builds that have gone on, and they have done nothing on
it. -/
theorem Onward.upholds (h : Onward g marks results trace marks') (hsettled : marks.Settled) :
  marks'.Settled ∧ ∀ node, (marks.mark node).visit = .done →
    marks'.mark node = marks.mark node ∧ ∀ action ∈ trace, action.node ≠ node
  := by
  induction h with
  | stop => exact ⟨hsettled, fun node _ => ⟨rfl, by simp⟩⟩
  | @build results trace between World env world target _ ih =>
    obtain ⟨hbetween, hkept⟩ := ih
    have hupholds := upholds_of_buildTarget env world target hbetween
    refine ⟨hupholds.settled, fun node hnode => ?_⟩
    obtain ⟨hmark, hnone⟩ := hkept node hnode
    have hdone : (between.mark node).visit = .done := by rw [hmark, hnode]
    have huntouched := List.filter_eq_nil_iff.1 (hupholds.untouched node hdone)
    refine ⟨(hupholds.kept node hdone).trans hmark, fun action haction => ?_⟩
    rcases List.mem_append.1 haction with hbefore | hnow
    · exact hnone action hbefore
    · exact fun heq => huntouched action hnow (decide_eq_true heq)

/-- The names reported as rebuilt are those of different nodes, all of them done. -/
theorem Succession.exists_rebuilt (h : Succession g results marks) :
  ∃ nodes : List g.Id, results.flatMap rebuiltNames = nodes.map g.name ∧ nodes.Nodup ∧
    ∀ node ∈ nodes, (marks.mark node).visit = .done
  := by
  induction h with
  | clear => exact ⟨[], rfl, List.nodup_nil, by simp⟩
  | @build results marks World env world target hsuccession ih =>
    obtain ⟨nodes, hnames, hnodup, hdone⟩ := ih
    have hupholds := upholds_of_buildTarget env world target hsuccession.settled
    have hstill : ∀ node ∈ nodes,
        ((buildTarget env g marks world target).progress.marks.mark node).visit = .done := by
      intro node hnode
      rw [hupholds.kept node (hdone node hnode), hdone node hnode]
    rw [List.flatMap_append, List.flatMap_singleton, hnames]
    cases hresult : (buildTarget env g marks world target).result with
    | error e => exact ⟨nodes, List.append_nil _, hnodup, hstill⟩
    | ok outcome =>
      obtain ⟨hrebuilt, hfresh⟩ := fresh_of_buildTarget hsuccession.settled hresult
      refine ⟨_, ?_, hnodup.append hfresh.nodup ?_, List.forall_mem_append.2 ⟨hstill, hfresh.done⟩⟩
      · rw [List.map_append, rebuiltNames, hrebuilt]
      · intro node hold hnew
        exact hfresh.new node hnew (hdone node hold)

end

/-- Finished work is not done again, whatever builds are made one after the other and however
they end, as long as the marks are not cleared.  The dependencies of what is done are done.
What is done keeps its mark, and later builds do nothing on it; and the build in which it was
done has given its commands once if it had to be built, and otherwise none.  No name is reported
as rebuilt twice. -/
theorem done_stays_done {earlier later : List (Except (Stop BuildError) Outcome)}
    {trace : List (Action g)} {marks marks' : Marks g} (h : Succession g earlier marks)
    (hlater : Onward g marks later trace marks') :
  (∀ node dependency, (marks.mark node).visit = .done → g.Needs node dependency →
      (marks.mark dependency).visit = .done) ∧
    (∀ node, (marks.mark node).visit = .done →
      marks'.mark node = marks.mark node ∧ ∀ action ∈ trace, action.node ≠ node) ∧
    (∀ {World : Type} (env : Environment World) (world : World) (target : Option String)
        (node : g.Id),
      let p := (buildTarget env g marks world target).progress
      (marks.mark node).visit ≠ .done → (p.marks.mark node).visit = .done →
        (p.story node).filterMap Action.command?
          = if (p.marks.mark node).mustBuild then g.commands node else []) ∧
    ((earlier ++ later).flatMap rebuiltNames).Nodup
  := by
  refine ⟨h.settled, (hlater.upholds h.settled).2, ?_, ?_⟩
  · intro World env world target
    exact (upholds_of_buildTarget env world target h.settled).issued
  · obtain ⟨nodes, hnames, hnodup, -⟩ := (h.onward hlater).exists_rebuilt
    rw [hnames]
    exact hnodup.map g.name_injective

/-! ### Going on after a build that broke off -/

/-- A build of the right part after the build of the program that could not make it. -/
def mended : Run Graph.diamond (List String) :=
  buildTarget .touching Graph.diamond refusal.progress.marks refusal.progress.world (some "right")

/-- The build of the program after that. -/
def completed : Run Graph.diamond (List String) :=
  buildTarget .touching Graph.diamond mended.progress.marks mended.progress.world (some "app")

theorem onward_refusal :
  Onward Graph.diamond refusal.progress.marks [mended.result, completed.result]
    (mended.progress.trace.toList ++ completed.progress.trace.toList) completed.progress.marks
  := by
  have hmended : Onward Graph.diamond refusal.progress.marks [mended.result]
      mended.progress.trace.toList mended.progress.marks :=
    Onward.stop.build .touching refusal.progress.world (some "right")
  exact hmended.build .touching mended.progress.world (some "app")

theorem mended_cases :
  (refusal.progress.marks.mark ⟨1, by decide⟩).visit = .done ∧
    mended.result = .ok ⟨"right", 1, ["right"]⟩ ∧ completed.result = .ok ⟨"app", 1, ["app"]⟩
  := by
  have hright : Graph.diamond.root (some "right") = .ok ⟨2, by decide⟩ := by
    have hdeclared : (Graph.diamond.node ⟨2, by decide⟩).declared = true := by decide
    exact Graph.root_name hdeclared
  simp only [completed, mended, refusal, buildTarget, Graph.root_diamond, hright]
  cbv

/-- The left part, done before the first build broke off, is not looked at again when the right
part and the program are made. -/
theorem done_stays_done_refusal :
  Succession Graph.diamond [refusal.result] refusal.progress.marks ∧
    Onward Graph.diamond refusal.progress.marks [mended.result, completed.result]
      (mended.progress.trace.toList ++ completed.progress.trace.toList)
      completed.progress.marks ∧
    mended.result = .ok ⟨"right", 1, ["right"]⟩ ∧ completed.result = .ok ⟨"app", 1, ["app"]⟩ ∧
    completed.progress.marks.mark ⟨1, by decide⟩ = refusal.progress.marks.mark ⟨1, by decide⟩ ∧
    ∀ action ∈ mended.progress.trace.toList ++ completed.progress.trace.toList,
      action.node ≠ ⟨1, by decide⟩
  := by
  obtain ⟨hdone, hmended, hcompleted⟩ := mended_cases
  obtain ⟨-, hkept, -⟩ := done_stays_done succession_refusal onward_refusal
  exact ⟨succession_refusal, onward_refusal, hmended, hcompleted, hkept _ hdone⟩

end IncrementalBuild
