import IncrementalBuild.Build.Run
import IncrementalBuild.Proofs.Survey.Invariant
import IncrementalBuild.Proofs.Trace

/-!
# What a survey finds

A survey of a root meets an error exactly if the root reaches a cycle, or a node that is
neither declared nor there; the root itself need not be there.  Its error is the one the
recursion meets first, and it is `Justified`: a cycle that is reported is a cycle of nodes
the root reaches, a prerequisite reported as missing is missing and needed by a node the
root reaches, and a file that cannot be looked at is that of a node the root reaches.

A build that meets an error in its survey leaves everything as it was.
-/

namespace IncrementalBuild

/-! ### Cycles by their names -/

/-- The names go around a cycle of nodes the root reaches, once, the first name again at
the end. -/
def Graph.NamesCycle (g : Graph) (root : g.Id) (names : List String) : Prop :=
  ∃ (first : g.Id) (rest : List g.Id),
    names = (first :: (rest ++ [first])).map g.name ∧
    (first :: (rest ++ [first])).IsChain g.Needs ∧
    ((first :: rest).map g.name).Nodup ∧
    ∀ node ∈ first :: rest, g.Reaches root node

namespace Graph

variable {g : Graph}

/-- An edge from the end of a path back to a node of the path closes a cycle. -/
theorem namesCycle_cycle {root node reentered : g.Id} {before : List g.Id}
    (hchain : (node :: before).IsChain fun node above => g.Needs above node)
    (hnodup : (node :: before).Nodup) (hreaches : ∀ n ∈ node :: before, g.Reaches root n)
    (hmem : reentered ∈ node :: before) (hneeds : g.Needs node reentered) :
  g.NamesCycle root (g.cycle (node :: before).reverse reentered)
  := by
  obtain ⟨skipped, rest, hsplit, hfirst⟩ := List.eq_append_cons_of_mem (List.mem_reverse.2 hmem)
  have hsub : (reentered :: rest).Sublist (node :: before).reverse := by
    rw [hsplit]
    exact List.sublist_append_right _ _
  use reentered, rest
  refine ⟨?_, ?_, ?_, ?_⟩
  · have hskip : ∀ n ∈ skipped, decide (n ≠ reentered) = true := by
      intro n hn
      exact decide_eq_true fun heq => hfirst (heq ▸ hn)
    rw [cycle, hsplit, List.dropWhile_append_of_pos hskip, List.dropWhile_cons_of_neg (by simp)]
    simp
  · have hforward : (node :: before).reverse.IsChain g.Needs := List.isChain_reverse.2 hchain
    have hlast : (reentered :: rest).getLast? = some node := by
      have hall : (node :: before).reverse.getLast? = some node := by simp
      rw [hsplit, List.getLast?_append] at hall
      rw [← hall]
      simp [List.getLast?_cons]
    rw [hsplit] at hforward
    rw [← List.cons_append, List.isChain_append]
    refine ⟨hforward.suffix (List.suffix_append _ _), .singleton _, ?_⟩
    intro x hx y hy
    rw [hlast, Option.mem_some_iff] at hx
    rw [List.head?_cons, Option.mem_some_iff] at hy
    rw [← hx, ← hy]
    apply hneeds
  · apply (hsub.nodup (List.nodup_reverse.2 hnodup)).map g.name_injective
  · intro n hn
    apply hreaches n (List.mem_reverse.1 (hsub.subset hn))

/-- A root that reaches the nodes of a cycle reaches a cycle. -/
theorem NamesCycle.reachesCycle {root : g.Id} {names : List String}
    (h : g.NamesCycle root names) :
  g.ReachesCycle root
  := by
  obtain ⟨first, rest, -, hchain, -, hreaches⟩ := h
  use first, hreaches first List.mem_cons_self
  have hlast : ∀ {nodes : List g.Id} {start : g.Id},
      (start :: (nodes ++ [first])).IsChain g.Needs → g.DependsOn start first := by
    intro nodes
    induction nodes with
    | nil =>
      intro start h
      exact .single (List.isChain_cons_cons.1 h).1
    | cons next nodes ih =>
      intro start h
      obtain ⟨hneeds, hrest⟩ := List.isChain_cons_cons.1 h
      exact .head hneeds (ih hrest)
  apply hlast hchain

end Graph

/-! ### The error of a survey -/

namespace Survey

variable {g : Graph} {World : Type}

/-- An error tells of something that is wrong with what the root reaches. -/
def Justified (env : Environment World) (world : World) (root : g.Id) : Stop BuildError → Prop
  | .failure (.cyclicDependency names) => g.NamesCycle root names
  | .failure (.missingPrerequisite name neededBy) =>
    ∃ parent dependency, g.Reaches root parent ∧ g.Needs parent dependency ∧
      (g.node dependency).declared = false ∧ env.modified world (g.name dependency) = .ok none ∧
      name = g.name dependency ∧ neededBy = g.name parent
  | .failure (.stat e) =>
    ∃ node, g.Reaches root node ∧ (g.node node).declared = false ∧
      env.modified world (g.name node) = .error (.failure e)
  | .panic =>
    ∃ node, g.Reaches root node ∧ (g.node node).declared = false ∧
      env.modified world (g.name node) = .error .panic
  | .failure (.unknownTarget _) | .failure .noTargets | .failure (.command _) => False

/-- There is something wrong where an error says so. -/
theorem Justified.exists_unmet {env : Environment World} {world : World} {root : g.Id}
    {e : Stop BuildError} (h : Justified env world root e) :
  g.ReachesCycle root ∨ ∃ node, g.Reaches root node ∧ ¬ Met env world node
  := by
  match e with
  | .failure (.cyclicDependency names) => exact .inl h.reachesCycle
  | .failure (.missingPrerequisite name neededBy) =>
    obtain ⟨parent, dependency, hreaches, hneeds, hdeclared, hfile, -, -⟩ := h
    right
    use dependency, hreaches.tail hneeds
    simp [Met, hdeclared, hfile]
  | .failure (.stat e) | .panic =>
    obtain ⟨node, hreaches, hdeclared, hfile⟩ := h
    right
    use node, hreaches
    simp [Met, hdeclared, hfile]
  | .failure (.unknownTarget _) | .failure .noTargets | .failure (.command _) => exact h.elim

theorem justified_of_missing {env : Environment World} {world : World}
    {root parent dependency : g.Id} {e : Stop BuildError} (hreaches : g.Reaches root parent)
    (hneeds : g.Needs parent dependency) (h : missing? env world parent dependency = some e) :
  Justified env world root e
  := by
  unfold missing? at h
  split at h
  · simp at h
  · next hdeclared =>
    rw [Bool.not_eq_true] at hdeclared
    split at h
    · next cause hfile =>
      cases h
      cases cause <;> exact ⟨dependency, hreaches.tail hneeds, hdeclared, hfile⟩
    · simp at h
    · next hfile =>
      cases h
      exact ⟨parent, dependency, hreaches, hneeds, hdeclared, hfile, rfl, rfl⟩

/-- The error of a turn of the loop is justified, and it is the one the recursion meets. -/
theorem Sound.failed {env : Environment World} {world : World} {root : g.Id}
    {order : List g.Id} {survey : Survey g} {e : Stop BuildError}
    (h : Sound env world root order survey) (hstep : survey.step env world = .failed e) :
  Justified env world root e ∧ (env.inspect world [] root).runFrom [] = some (.error e, order)
  := by
  match survey with
  | ⟨_, []⟩ => simp [Survey.step] at hstep
  | ⟨_, ⟨_, []⟩ :: _⟩ => simp [Survey.step] at hstep
  | ⟨visits, ⟨node, dependency :: rest⟩ :: below⟩ =>
    have hneeds : g.Needs node dependency :=
      h.needs _ List.mem_cons_self dependency List.mem_cons_self
    rw [← h.resumes, resume_cons]
    simp only [Survey.step] at hstep
    split at hstep
    · simp at hstep
    · next hvisit =>
      cases hstep
      have hmem := (h.inProgress_iff dependency).1 hvisit
      have hnew : dependency ∉ order := h.not_mem_order (by simp [visit, hvisit])
      constructor
      · apply Graph.namesCycle_cycle h.chain h.nodup h.reaches hmem hneeds
      · apply Routine.runFrom_bind_of_error (runFrom_inspectOne_of_cycle hnew hmem)
    · next hvisit =>
      have hnew : dependency ∉ order := h.not_mem_order (by simp [visit, hvisit])
      have hpath : dependency ∉ path ⟨visits, ⟨node, dependency :: rest⟩ :: below⟩ :=
        h.not_mem_path (by simp [visit, hvisit])
      split at hstep
      · next hmissing =>
        cases hstep
        constructor
        · apply justified_of_missing (h.reaches node List.mem_cons_self) hneeds hmissing
        · apply Routine.runFrom_bind_of_error (runFrom_inspectOne_of_missing hnew hpath hmissing)
      · simp at hstep

end Survey

/-! ### The result of a survey -/

section

variable {g : Graph} {World : Type} {env : Environment World} {world : World} {root : g.Id}

/-- A root without an error has a post-order, and all it reaches is declared or there. -/
theorem exists_postOrderOf_of_survey (h : survey env world g root = none) :
  ∃ order, g.PostOrderOf root order ∧
    ∀ node, g.Reaches root node → node = root ∨ Survey.Met env world node
  := by
  obtain ⟨last, order, hsound, ⟨hfinished, -⟩ | ⟨e, -, hsurvey⟩⟩ :=
    Survey.exists_sound_last env world root
  · obtain ⟨visits, stack⟩ := last
    obtain rfl : stack = [] := Survey.stack_eq_nil_of_finished hfinished
    have hpost := hsound.completes order rfl
    use order, hpost
    intro node hreaches
    apply hsound.met node (.inl (hpost.mem_iff.2 hreaches))
  · simp [h] at hsurvey

/-- An error of a survey is justified, and it is the one the recursion meets first. -/
theorem justified_of_survey {e : Stop BuildError} (h : survey env world g root = some e) :
  Survey.Justified env world root e ∧
    ∃ order, (env.inspect world [] root).runFrom [] = some (.error e, order)
  := by
  obtain ⟨last, order, hsound, ⟨-, hsurvey⟩ | ⟨e', hfailed, hsurvey⟩⟩ :=
    Survey.exists_sound_last env world root
  · simp [h] at hsurvey
  · rw [h] at hsurvey
    cases hsurvey
    obtain ⟨hjustified, hinspect⟩ := hsound.failed hfailed
    exact ⟨hjustified, order, hinspect⟩

/-- The survey of a declared root meets an error exactly if the root reaches a cycle, or a
node that is not declared and of whose file no time is found.  The error is justified, it is
the one the recursion meets first, and a build that meets it has run no command and left the
world and all marks as they were. -/
theorem survey_eq_some_iff (env : Environment World) (marks : Marks g) (world : World)
    (hroot : (g.node root).declared = true) :
  ((∃ e, survey env world g root = some e) ↔
    g.ReachesCycle root ∨
      ∃ node, g.Reaches root node ∧ (g.node node).declared = false ∧
        ∀ time, env.modified world (g.name node) ≠ .ok (some time)) ∧
  ∀ e, survey env world g root = some e →
    (∃ order, (env.inspect world [] root).runFrom [] = some (.error e, order)) ∧
    Survey.Justified env world root e ∧
    (build env g marks world root).result = .error e ∧
    (build env g marks world root).commands = [] ∧
    (build env g marks world root).progress.world = world ∧
    (build env g marks world root).progress.marks = marks
  := by
  have hmet : ∀ node, ¬ Survey.Met env world node ↔ (g.node node).declared = false ∧
      ∀ time, env.modified world (g.name node) ≠ .ok (some time) := by
    intro node
    simp [Survey.Met]
  constructor
  · simp only [← hmet]
    constructor
    · rintro ⟨e, he⟩
      apply (justified_of_survey he).1.exists_unmet
    · intro hwrong
      by_contra hnone
      have hsurvey : survey env world g root = none := by
        rw [Option.eq_none_iff_forall_ne_some]
        exact fun e he => hnone ⟨e, he⟩
      obtain ⟨order, hpost, hall⟩ := exists_postOrderOf_of_survey hsurvey
      rcases hwrong with hcycle | ⟨node, hreaches, hunmet⟩
      · apply hpost.not_reachesCycle hcycle
      · rcases hall node hreaches with rfl | h
        · apply hunmet (.inl hroot)
        · apply hunmet h
  · intro e he
    obtain ⟨hjustified, hinspect⟩ := justified_of_survey he
    have hbuild : build env g marks world root
        = ⟨.error e, Progress.start marks world, e.surveyEvents⟩ := by
      simp [build, he]
    rw [hbuild]
    exact ⟨hinspect, hjustified, rfl, rfl, rfl, rfl⟩

end

theorem survey_eq_some_iff_loop :
  (Graph.loop.node Graph.loopRoot).declared = true ∧
    survey .touching [] Graph.loop Graph.loopRoot
      = some (.failure (.cyclicDependency ["app", "left", "source", "app"])) ∧
    Graph.loop.NamesCycle Graph.loopRoot ["app", "left", "source", "app"] ∧
    (build .touching Graph.loop (Marks.clear Graph.loop) [] Graph.loopRoot).commands = []
  := by
  have hroot : (Graph.loop.node Graph.loopRoot).declared = true := by decide
  have hsurvey : survey .touching [] Graph.loop Graph.loopRoot
      = some (.failure (.cyclicDependency ["app", "left", "source", "app"])) := by
    cbv
  obtain ⟨-, hjustified, -, hcommands, -⟩ :=
    (survey_eq_some_iff .touching (Marks.clear Graph.loop) [] hroot).2 _ hsurvey
  exact ⟨hroot, hsurvey, hjustified, hcommands⟩

end IncrementalBuild
