import IncrementalBuild.Proofs.Graph.Root
import IncrementalBuild.Proofs.Walk.Failure
import Mathlib.Data.List.TakeWhile

/-!
# Builds one after the other

Marks outlive the build that leaves them.  A build that begins with the marks of earlier builds
takes every node that is in progress for a node on its path.  So it reports a cycle that is
there, which its survey has found, or, after a build that has failed, one that is not: a single
name, that of a node which an earlier build has left in progress.

`Walk.Roams` is what is known of a walk whatever the marks were when it began: a node in progress
lies on its path, or was in progress at the beginning.  `Succession` are builds of one graph, one
after the other, with their results and the marks they leave.
-/

namespace IncrementalBuild

variable {g : Graph} {World : Type}

namespace Walk

variable {env : Environment World} {root : g.Id} {marks : Marks g} {walk next : Walk g World}
  {p : Progress g World}

/-! ### The way of a walk -/

/-- A node on a path leads to the end of the path. -/
theorem dependsOn_of_isChain {node other : g.Id} {above : List g.Id}
    (h : (node :: above).IsChain fun node above => g.Needs above node) (hother : other ∈ above) :
  g.DependsOn other node
  := by
  have htrans : IsTrans g.Id g.DependsOn := inferInstanceAs (IsTrans g.Id (Relation.TransGen _))
  have hchain : (node :: above).IsChain (Function.swap g.DependsOn) := h.imp fun _ _ => .single
  exact (List.pairwise_cons.1 hchain.pairwise).1 other hother

/-- The root reaches the node on top. -/
theorem Way.reaches_top {node : g.Id} {pending : List g.Id} {resolved : Option g.Id}
    {below : List (Frame g)} (h : Way root ⟨⟨node, pending, resolved⟩ :: below, p⟩) :
  g.Reaches root node
  := by
  have hlast := List.getLast?_eq_some_getLast (List.cons_ne_nil node (below.map (·.node)))
  have hroot := h.root_eq _ hlast
  rcases List.mem_cons.1 (List.mem_of_getLast? hlast) with heq | hmem
  · rw [← hroot, heq]
    exact .refl
  · rw [← hroot]
    exact (dependsOn_of_isChain h.chain hmem).to_reflTransGen

/-- If the root reaches no cycle, the node on top needs none of those on the path: an edge back
to the path would close a cycle. -/
theorem Way.not_mem_path {node dependency : g.Id} {pending : List g.Id} {resolved : Option g.Id}
    {below : List (Frame g)} (h : Way root ⟨⟨node, pending, resolved⟩ :: below, p⟩)
    (hacyclic : ¬ g.ReachesCycle root) (hneeds : g.Needs node dependency) :
  dependency ∉ node :: below.map (·.node)
  := by
  intro hmem
  apply hacyclic
  use dependency, h.reaches_top.tail hneeds
  rcases List.mem_cons.1 hmem with rfl | hmem
  · exact .single hneeds
  · exact (dependsOn_of_isChain h.chain hmem).tail hneeds

/-- A node cannot fail to be entered because of a cycle. -/
theorem ne_cyclicDependency_of_enter {parent? : Option g.Id} {node : g.Id}
    {p q : Progress g World} {e : Stop BuildError}
    (h : p.enter env parent? node = (.error e, q)) (names : List String) :
  e ≠ .failure (.cyclicDependency names)
  := by cases (Progress.enterFailure_of_enter h).1 <;> simp

/-- A failure of a turn is not about a cycle. -/
theorem Failure.ne_cyclicDependency {e : Stop BuildError} (h : Failure env walk e p)
    (names : List String) :
  e ≠ .failure (.cyclicDependency names)
  := by
  cases h with
  | enter _ henter => exact ne_cyclicDependency_of_enter henter names
  | finish hfinish => cases (Progress.finishFailure_of_finish hfinish).2 <;> simp

/-! ### A walk that begins with any marks -/

/-- A walk goes on its way from the root, and the nodes in progress lie on its path unless they
were in progress at the beginning. -/
structure Roams (root : g.Id) (marks : Marks g) (walk : Walk g World) : Prop
    extends Way root walk where
  inProgress : ∀ node, (walk.progress.marks.mark node).visit = .inProgress →
    node ∈ walk.path ∨ (marks.mark node).visit = .inProgress

namespace Roams

theorem start {world : World} {parent? : Option g.Id}
    (henter : (Progress.start marks world).enter env parent? root = (.ok (), p)) :
  Roams root marks ⟨[frame g root], p⟩
  := by
  refine ⟨way_start root p, ?_⟩
  obtain ⟨found, hentered⟩ := Progress.entered_of_enter henter
  intro other hother
  rw [hentered.mark] at hother
  split at hother
  · next heq => exact .inl (heq ▸ List.mem_cons_self)
  · exact .inr hother

theorem paid (h : Roams root marks walk) :
  Roams root marks walk.paid
  := ⟨h.toWay.paid, by simpa using h.inProgress⟩

/-- Every move of the loop keeps what is known. -/
theorem move (h : Roams root marks walk) (hmove : Move env walk next) :
  Roams root marks next
  := by
  refine ⟨h.toWay.move hmove, ?_⟩
  intro other hother
  cases hmove with
  | pass => exact h.inProgress other hother
  | descend _ henter =>
    obtain ⟨found, hentered⟩ := Progress.entered_of_enter henter
    rw [hentered.mark] at hother
    split at hother
    · next heq => exact .inl (heq ▸ List.mem_cons_self)
    · exact (h.inProgress other hother).imp_left (List.mem_cons_of_mem _)
  | @leave node below p q hfinish =>
    have hne : other ≠ node := by
      rintro rfl
      rw [Progress.visit_finish_self hfinish] at hother
      cases hother
    rw [Progress.mark_finish_of_ne hfinish hne] at hother
    exact (h.inProgress other hother).imp_left fun hmem => (List.mem_cons.1 hmem).resolve_left hne

/-- If the root reaches no cycle, a cycle that is reported is the name of a node that was in
progress at the beginning. -/
theorem eq_of_halt {names : List String} (h : Roams root marks walk)
    (hacyclic : ¬ g.ReachesCycle root)
    (hhalt : Halt env walk (.failure (.cyclicDependency names)) p) :
  ∃ node, names = [g.name node] ∧ g.Reaches root node ∧ (marks.mark node).visit = .inProgress
  := by
  generalize he : Stop.failure (BuildError.cyclicDependency names) = e at hhalt
  cases hhalt with
  | failure hfailure => exact absurd he.symm (hfailure.ne_cyclicDependency names)
  | @cycle node dependency rest below p hvisit =>
    cases he
    have hneeds : g.Needs node dependency :=
      h.needs (node, dependency :: rest) List.mem_cons_self dependency List.mem_cons_self
    have hreaches : g.Reaches root dependency := h.toWay.reaches_top.tail hneeds
    have hpath := h.toWay.not_mem_path hacyclic hneeds
    refine ⟨dependency, ?_, hreaches, (h.inProgress dependency hvisit).resolve_left hpath⟩
    have hdrop : (node :: below.map (·.node)).reverse.dropWhile (· ≠ dependency) = [] := by
      rw [List.dropWhile_eq_nil_iff]
      intro other hother
      exact decide_eq_true fun heq => hpath (heq ▸ List.mem_reverse.1 hother)
    rw [Graph.cycle, hdrop]
    rfl

end Roams

end Walk

/-- How a walk ends, and what every move has kept: the root cannot be entered, or nothing is
left to do, or a turn of the loop comes to a halt. -/
theorem Walk.walk_cases {env : Environment World} {start : Progress g World} {root : g.Id}
    {Inv : Walk g World → Prop}
    (hstart : ∀ p, start.enter env none root = (.ok (), p) → Inv ⟨[frame g root], p⟩)
    (hpaid : ∀ walk, Inv walk → Inv walk.paid)
    (hmove : ∀ walk next, Inv walk → Move env walk next → Inv next) :
  (∃ e p, start.enter env none root = (.error e, p) ∧ walk env g root start = (.error e, p)) ∨
    (∃ p, walk env g root start = (.ok (), p) ∧ Inv ⟨[], p⟩) ∨
    ∃ last e p, walk env g root start = (.error e, p) ∧ Inv last ∧ Halt env last e p
  := by
  unfold walk
  split
  · next e p henter => exact .inl ⟨e, p, henter, rfl⟩
  · next p henter =>
    right
    have hnext : ∀ walk next, Inv walk → walk.step env = .next next → Inv next :=
      fun _ _ h hstep => hmove _ _ (hpaid _ h) (move_of_step hstep)
    rcases exists_last env _ hnext (hstart p henter) with
      ⟨p, hinv, hrun⟩ | ⟨last, e, p, hinv, hstep, hrun⟩
    · exact .inl ⟨p, hrun, hinv⟩
    · exact .inr ⟨last.paid, e, p, hrun, hpaid _ hinv, halt_of_step hstep⟩

theorem Walk.Roams.walk_cases (env : Environment World) (marks : Marks g) (world : World)
    (root : g.Id) :
  (∃ e p, (Progress.start marks world).enter env none root = (.error e, p) ∧
      walk env g root (Progress.start marks world) = (.error e, p)) ∨
    (∃ p, walk env g root (Progress.start marks world) = (.ok (), p) ∧
      Roams root marks ⟨[], p⟩) ∨
    ∃ last e p, walk env g root (Progress.start marks world) = (.error e, p) ∧
      Roams root marks last ∧ Halt env last e p
  := Walk.walk_cases (fun _ => .start) (fun _ h => h.paid) (fun _ _ h => h.move)

/-! ### A build that begins with any marks -/

section

variable {env : Environment World} {world : World} {marks : Marks g} {root node : g.Id}
  {names : List String}

/-- A build that succeeds has left its walk, or had nothing to do. -/
theorem roams_of_build {outcome : Outcome}
    (hok : (build env g marks world root).result = .ok outcome) :
  (build env g marks world root).progress.marks = marks ∨
    Walk.Roams root marks ⟨[], (build env g marks world root).progress⟩
  := by
  have hsurvey := survey_of_build hok
  simp only [build, hsurvey] at hok ⊢
  split at hok
  · next hdone => simp [hdone, Progress.start]
  · next hdone =>
    simp only [hdone, if_false]
    rcases Walk.Roams.walk_cases env marks world root with
      ⟨e, p, -, hwalk⟩ | ⟨p, hwalk, hroams⟩ | ⟨last, e, p, hwalk, -, -⟩
    · simp [hwalk] at hok
    · simp [hwalk, hroams]
    · simp [hwalk] at hok

/-- A build that ends in an error after its survey could not enter its root, or its walk has
come to a halt. -/
theorem halt_of_build {e : Stop BuildError} (hsurvey : survey env world g root = none)
    (herror : (build env g marks world root).result = .error e) :
  (∃ p, (Progress.start marks world).enter env none root = (.error e, p)) ∨
    ∃ last p, Walk.Roams root marks last ∧ Walk.Halt env last e p
  := by
  simp only [build, hsurvey] at herror
  split at herror
  · simp at herror
  · rcases Walk.Roams.walk_cases env marks world root with
      ⟨e', p, henter, hwalk⟩ | ⟨p, hwalk, -⟩ | ⟨last, e', p, hwalk, hroams, hhalt⟩
    all_goals simp only [hwalk] at herror; cases herror
    · exact .inl ⟨p, henter⟩
    · exact .inr ⟨last, p, hroams, hhalt⟩

/-- After a build that succeeds no node is in progress that was not when it began. -/
theorem inProgress_of_build {outcome : Outcome}
    (hok : (build env g marks world root).result = .ok outcome)
    (hnode : ((build env g marks world root).progress.marks.mark node).visit = .inProgress) :
  (marks.mark node).visit = .inProgress
  := by
  rcases roams_of_build hok with hsame | hroams
  · rw [← hsame]
    exact hnode
  · exact (hroams.inProgress node hnode).resolve_left List.not_mem_nil

/-- A cycle that a build reports is there, found by its survey, or the root reaches no cycle,
and it is the name of a node that was in progress when the build began. -/
theorem cycle_of_build
    (hcycle : (build env g marks world root).result = .error (.failure (.cyclicDependency names))) :
  g.NamesCycle root names ∧ (build env g marks world root).progress.marks = marks ∨
    ¬ g.ReachesCycle root ∧
      ∃ node, names = [g.name node] ∧ g.Reaches root node ∧
        (marks.mark node).visit = .inProgress
  := by
  cases hsurvey : survey env world g root with
  | some e =>
    simp only [build, hsurvey] at hcycle ⊢
    cases hcycle
    exact .inl ⟨(justified_of_survey hsurvey).1, rfl⟩
  | none =>
    obtain ⟨order, hpost, -⟩ := exists_postOrderOf_of_survey hsurvey
    refine .inr ⟨hpost.not_reachesCycle, ?_⟩
    rcases halt_of_build hsurvey hcycle with ⟨p, henter⟩ | ⟨last, p, hroams, hhalt⟩
    · exact absurd rfl (Walk.ne_cyclicDependency_of_enter henter names)
    · exact hroams.eq_of_halt hpost.not_reachesCycle hhalt

end

/-! ### Builds one after the other -/

/-- Builds of a graph have been made one after the other, from clear marks on, in whatever
world and environment: their results, the first build first, and the marks they have left. -/
inductive Succession (g : Graph) : List (Except (Stop BuildError) Outcome) → Marks g → Prop
  | clear : Succession g [] (Marks.clear g)
  | build {results : List (Except (Stop BuildError) Outcome)} {marks : Marks g} {World : Type}
      (env : Environment World) (world : World) (target : Option String)
      (h : Succession g results marks) :
    Succession g (results ++ [(buildTarget env g marks world target).result])
      (buildTarget env g marks world target).progress.marks

/-- A build broke off: it was stopped early, and not by a cycle. -/
def BrokeOff (results : List (Except (Stop BuildError) Outcome)) : Prop :=
  ∃ e, .error e ∈ results ∧ ∀ names, e ≠ .failure (.cyclicDependency names)

/-- Only a build that has broken off leaves nodes in progress. -/
theorem Succession.brokeOff {results : List (Except (Stop BuildError) Outcome)} {marks : Marks g}
    {node : g.Id} (h : Succession g results marks)
    (hnode : (marks.mark node).visit = .inProgress) :
  BrokeOff results
  := by
  induction h generalizing node with
  | clear => simp [Mark.clear] at hnode
  | @build results marks World env world target _ ih =>
    suffices hbroke : BrokeOff results ∨
        BrokeOff [(buildTarget env g marks world target).result] by
      rcases hbroke with ⟨e, he, hne⟩ | ⟨e, he, hne⟩
      · exact ⟨e, List.mem_append_left _ he, hne⟩
      · exact ⟨e, List.mem_append_right _ he, hne⟩
    rw [buildTarget] at hnode ⊢
    split at hnode
    · exact .inl (ih hnode)
    · next root hroot =>
      cases hresult : (IncrementalBuild.build env g marks world root).result with
      | ok outcome => exact .inl (ih (inProgress_of_build hresult hnode))
      | error e =>
        by_cases hcycle : ∃ names, e = .failure (.cyclicDependency names)
        · obtain ⟨names, rfl⟩ := hcycle
          -- the marks are as they were, or a node was in progress already
          rcases cycle_of_build hresult with ⟨-, hsame⟩ | ⟨-, other, -, -, hother⟩
          · exact .inl (ih (hsame ▸ hnode))
          · exact .inl (ih hother)
        · exact .inr ⟨e, List.mem_singleton_self _, fun names heq => hcycle ⟨names, heq⟩⟩

/-- Whatever builds were made before, a cycle that a build reports is there, with at least two
names, the last of them the first again, each of a node that needs the next; or the root
reaches no cycle, and it is a single name, that of a node the root reaches which an earlier
build has left in progress when it broke off. -/
theorem cycle_of_succession {results : List (Except (Stop BuildError) Outcome)} {marks : Marks g}
    {env : Environment World} {world : World} {target : Option String} {names : List String}
    (h : Succession g results marks)
    (hcycle : (buildTarget env g marks world target).result
      = .error (.failure (.cyclicDependency names))) :
  ∃ root, g.root target = .ok root ∧
    (g.NamesCycle root names ∨
      BrokeOff results ∧ ¬ g.ReachesCycle root ∧
        ∃ node, names = [g.name node] ∧ g.Reaches root node ∧
          (marks.mark node).visit = .inProgress)
  := by
  unfold buildTarget at hcycle
  split at hcycle
  · next e hroot =>
    cases hcycle
    exact absurd hroot (g.root_ne_cyclicDependency target names)
  · next root hroot =>
    refine ⟨root, hroot, ?_⟩
    rcases cycle_of_build hcycle with ⟨hnames, -⟩ | ⟨hacyclic, node, hname, hreaches, hnode⟩
    · exact .inl hnames
    · exact .inr ⟨h.brokeOff hnode, hacyclic, node, hname, hreaches, hnode⟩

/-! ### A build made again after it broke off -/

/-- A build of the program that cannot make the right part. -/
def refusal : Run Graph.diamond (List String) :=
  buildTarget (.refusing "right") Graph.diamond (Marks.clear Graph.diamond)
    ["app", "left", "source", "right"] (some "app")

/-- The same build again, which begins with the marks of the first. -/
def retry : Run Graph.diamond (List String) :=
  buildTarget (.refusing "right") Graph.diamond refusal.progress.marks refusal.progress.world
    (some "app")

theorem succession_refusal :
  Succession Graph.diamond [refusal.result] refusal.progress.marks
  := .build (.refusing "right") ["app", "left", "source", "right"] (some "app") .clear

/-- The first build ends in the error of a command, the second in that of a cycle. -/
theorem refusal_cases :
  refusal.result = .error (.failure (.command (.failed "right" (some 1)))) ∧
    retry.result = .error (.failure (.cyclicDependency ["right"])) ∧
    survey (.refusing "right") refusal.progress.world Graph.diamond Graph.diamondRoot = none
  := by
  simp only [retry, refusal, buildTarget, Graph.root_diamond]
  cbv
  exact ⟨rfl, rfl, trivial⟩

theorem cycle_of_succession_refusal :
  Succession Graph.diamond [refusal.result] refusal.progress.marks ∧
    retry.result = .error (.failure (.cyclicDependency ["right"])) ∧
    ∃ root, Graph.diamond.root (some "app") = .ok root ∧
      (Graph.diamond.NamesCycle root ["right"] ∨
        BrokeOff [refusal.result] ∧ ¬ Graph.diamond.ReachesCycle root ∧
          ∃ node, ["right"] = [Graph.diamond.name node] ∧ Graph.diamond.Reaches root node ∧
            (refusal.progress.marks.mark node).visit = .inProgress)
  := by
  have hretry := refusal_cases.2.1
  exact ⟨succession_refusal, hretry, cycle_of_succession succession_refusal hretry⟩

/-- After a build that broke off, a cycle of a single name is reported where there is none. -/
theorem cycle_of_retry_refusal :
  Succession Graph.diamond [.error (.failure (.command (.failed "right" (some 1))))]
      refusal.progress.marks ∧
    (buildTarget (.refusing "right") Graph.diamond refusal.progress.marks refusal.progress.world
      (some "app")).result = .error (.failure (.cyclicDependency ["right"])) ∧
    Graph.diamond.root (some "app") = .ok Graph.diamondRoot ∧
    ¬ Graph.diamond.ReachesCycle Graph.diamondRoot
  := by
  obtain ⟨hresult, hretry, hsurvey⟩ := refusal_cases
  obtain ⟨order, hpost, -⟩ := exists_postOrderOf_of_survey hsurvey
  refine ⟨?_, hretry, Graph.root_diamond, hpost.not_reachesCycle⟩
  rw [← hresult]
  exact succession_refusal

end IncrementalBuild
