import IncrementalBuild.Proofs.Graph.PostOrder
import IncrementalBuild.Proofs.Survey.Recursion
import Mathlib.Data.List.Chain

/-!
# The invariant of the survey

`Survey.Sound` holds of a survey under way that has left behind the nodes `order`.  A node
is done if it is one of them, and in progress if it lies on the path, which leads from the
root to the node the survey is at; the walk that is left completes the post-order of the
root; every node met so far is declared or has a file, the root perhaps apart; and the
recursion, from the stack as it is, has the same result as from the root.

A turn of the loop keeps the invariant.  `Survey.exists_last` carries it to the last turn.
-/

namespace IncrementalBuild

/-! ### The last turn -/

namespace Survey

variable {g : Graph} {World : Type}

section

variable {env : Environment World} {world : World} {survey next : Survey g}

theorem run_of_finished (h : survey.step env world = .finished) :
  survey.run env world = none
  := by rw [run, h]

theorem run_of_failed {e : Stop BuildError} (h : survey.step env world = .failed e) :
  survey.run env world = some e
  := by rw [run, h]

theorem run_of_next (h : survey.step env world = .next next) :
  survey.run env world = next.run env world
  := by rw [run, h]

end

/-- What every turn of the loop keeps holds before its last turn, which gives the result. -/
theorem exists_last (env : Environment World) (world : World) (Inv : Survey g → Prop)
    (hnext : ∀ survey next, Inv survey → survey.step env world = .next next → Inv next)
    {survey : Survey g} (h : Inv survey) :
  ∃ last, Inv last ∧
    (last.step env world = .finished ∧ survey.run env world = none ∨
      ∃ e, last.step env world = .failed e ∧ survey.run env world = some e)
  := by
  induction survey using Survey.run.induct env world with
  | case1 survey hstep => exact ⟨survey, h, .inl ⟨hstep, run_of_finished hstep⟩⟩
  | case2 survey e hstep => exact ⟨survey, h, .inr ⟨e, hstep, run_of_failed hstep⟩⟩
  | case3 survey next hstep ih =>
    rw [run_of_next hstep]
    apply ih (hnext survey next h hstep)

/-- The loop ends with an empty stack. -/
theorem stack_eq_nil_of_finished {env : Environment World} {world : World} {survey : Survey g}
    (h : survey.step env world = .finished) :
  survey.stack = []
  := by
  match survey with
  | ⟨_, []⟩ => rfl
  | ⟨_, ⟨_, []⟩ :: _⟩ => simp [step] at h
  | ⟨_, ⟨_, _ :: _⟩ :: _⟩ =>
    simp only [step] at h
    split at h
    · simp at h
    · simp at h
    · split at h <;> simp at h

/-! ### What the invariant speaks of -/

/-- How far the survey has got with a node. -/
def visit (survey : Survey g) (node : g.Id) : Visit :=
  have h := g.id_lt_size node
  survey.visits[node.val]

/-- The nodes on the way from the root, the end of the way first. -/
def path (survey : Survey g) : List g.Id :=
  survey.stack.map (·.node)

/-- A node is declared, or there is a file of its name. -/
def Met (env : Environment World) (world : World) (node : g.Id) : Prop :=
  (g.node node).declared = true ∨ ∃ time, env.modified world (g.name node) = .ok (some time)

@[simp]
theorem visit_set (visits : Vector Visit g.size) (stack : List (Branch g)) (node other : g.Id)
    (v : Visit) :
  visit ⟨visits.set node.val v (g.id_lt_size node), stack⟩ other
    = if other = node then v else visit ⟨visits, stack⟩ other
  := by
  by_cases h : other = node
  · simp [visit, h]
  · have hne : node.val ≠ other.val := fun heq => h (Fin.ext heq.symm)
    simp [visit, h, hne]

theorem missing?_eq_none_iff {env : Environment World} {world : World}
    {parent dependency : g.Id} :
  missing? env world parent dependency = none ↔ Met env world dependency
  := by
  unfold missing? Met
  split
  · next hdeclared => simp [hdeclared]
  · next hdeclared => split <;> simp_all

/-- A survey under way that has left behind the nodes `order`. -/
structure Sound (env : Environment World) (world : World) (root : g.Id) (order : List g.Id)
    (survey : Survey g) : Prop where
  done_iff : ∀ node, survey.visit node = .done ↔ node ∈ order
  inProgress_iff : ∀ node, survey.visit node = .inProgress ↔ node ∈ survey.path
  nodup : survey.path.Nodup
  chain : survey.path.IsChain fun node above => g.Needs above node
  reaches : ∀ node ∈ survey.path, g.Reaches root node
  needs : ∀ branch ∈ survey.stack, ∀ node ∈ branch.pending, g.Needs branch.node node
  completes : ∀ final, g.Completes final order (survey.stack.map fun b => (b.node, b.pending)) →
    g.PostOrderOf root final
  met : ∀ node, node ∈ order ∨ node ∈ survey.path → node = root ∨ Met env world node
  resumes : (resume env world survey.stack).runFrom order = (env.inspect world [] root).runFrom []

namespace Sound

variable {env : Environment World} {world : World} {root node dependency : g.Id}
  {order rest : List g.Id} {visits : Vector Visit g.size} {below : List (Branch g)}

theorem start (env : Environment World) (world : World) (root : g.Id) :
  Sound env world root [] (Survey.start root)
  := by
  constructor
  · intro node
    simp only [Survey.start, enter, visit_set]
    split
    · simp
    · simp [visit]
  · intro node
    simp only [Survey.start, enter, visit_set]
    split
    · next h => simp [path, h]
    · next h => simp [path, h, visit]
  · simp [path, Survey.start, enter]
  · simp [path, Survey.start, enter]
  · simp [path, Survey.start, enter, Graph.Reaches, Relation.ReflTransGen.refl]
  · simp [Survey.start, enter, Graph.Needs]
  · intro final h
    apply Graph.Completes.root_iff.1 h
  · intro node h
    left
    simpa [path, Survey.start, enter] using h
  · rw [inspect_eq]
    simp only [Survey.start, enter, resume, List.map_nil, bind_pure_unit]

/-- A node that is not done has not been left behind. -/
theorem not_mem_order {survey : Survey g} (h : Sound env world root order survey)
    (hvisit : survey.visit node ≠ .done) :
  node ∉ order
  := fun hmem => hvisit ((h.done_iff node).2 hmem)

/-- A node that is not in progress does not lie on the path. -/
theorem not_mem_path {survey : Survey g} (h : Sound env world root order survey)
    (hvisit : survey.visit node ≠ .inProgress) :
  node ∉ survey.path
  := fun hmem => hvisit ((h.inProgress_iff node).2 hmem)

/-- A dependency that has been left behind is passed over. -/
theorem pass (h : Sound env world root order ⟨visits, ⟨node, dependency :: rest⟩ :: below⟩)
    (hmem : dependency ∈ order) :
  Sound env world root order ⟨visits, ⟨node, rest⟩ :: below⟩
  where
  done_iff := h.done_iff
  inProgress_iff := h.inProgress_iff
  nodup := h.nodup
  chain := h.chain
  reaches := h.reaches
  needs := by
    have hneeds := h.needs
    simp only [List.forall_mem_cons] at hneeds ⊢
    exact ⟨hneeds.1.2, hneeds.2⟩
  completes := by
    intro final hfinal
    apply h.completes final ((Graph.Completes.skip_iff hmem).2 hfinal)
  met := h.met
  resumes := by
    rw [← h.resumes, resume_cons,
      Routine.runFrom_bind_of_ok (runFrom_inspectOne_of_mem hmem)]

/-- A node without further dependencies is left behind. -/
theorem leave (h : Sound env world root order ⟨visits, ⟨node, []⟩ :: below⟩) :
  Sound env world root (order ++ [node])
    ⟨visits.set node.val .done (g.id_lt_size node), below⟩
  where
  done_iff := by
    intro other
    rw [visit_set, List.mem_append, List.mem_singleton, ← h.done_iff]
    split
    · next heq => simp [heq]
    · next hne => simp [hne, visit]
  inProgress_iff := by
    intro other
    have hpath := h.inProgress_iff other
    have hnot : node ∉ below.map (·.node) := (List.nodup_cons.1 h.nodup).1
    simp only [path, List.map_cons, List.mem_cons] at hpath ⊢
    rw [visit_set]
    split
    · next heq => simp [heq, hnot]
    · next hne =>
      rw [or_iff_right hne] at hpath
      apply hpath
  nodup := (List.nodup_cons.1 h.nodup).2
  chain := h.chain.tail
  reaches := fun other hother => h.reaches other (List.mem_cons_of_mem _ hother)
  needs := fun branch hbranch => h.needs branch (List.mem_cons_of_mem _ hbranch)
  completes := by
    intro final hfinal
    apply h.completes final (Graph.Completes.pop_iff.2 hfinal)
  met := by
    intro other hother
    apply h.met
    simp only [List.mem_append, List.mem_singleton] at hother
    rcases hother with (hmem | rfl) | hmem
    · exact .inl hmem
    · exact .inr List.mem_cons_self
    · exact .inr (List.mem_cons_of_mem _ hmem)
  resumes := h.resumes

/-- A dependency that has not been met is entered. -/
theorem enter (h : Sound env world root order ⟨visits, ⟨node, dependency :: rest⟩ :: below⟩)
    (hvisit : visit ⟨visits, ⟨node, dependency :: rest⟩ :: below⟩ dependency = .unvisited)
    (hmissing : missing? env world node dependency = none) :
  Sound env world root order (Survey.enter ⟨visits, ⟨node, rest⟩ :: below⟩ dependency)
  := by
  have hnew : dependency ∉ order := h.not_mem_order (by simp [hvisit])
  have hpath : dependency ∉ node :: below.map (·.node) := h.not_mem_path (by simp [hvisit])
  have hneeds : g.Needs node dependency :=
    h.needs _ List.mem_cons_self dependency List.mem_cons_self
  constructor
  · intro other
    rw [Survey.enter, visit_set, ← h.done_iff]
    split
    · next heq =>
      rw [heq, hvisit]
      simp
    · apply Iff.rfl
  · intro other
    rw [Survey.enter, visit_set]
    split
    · next heq => simp [path, heq]
    · next hne =>
      have hold := h.inProgress_iff other
      simp only [path, List.map_cons, List.mem_cons, hne, false_or] at hold ⊢
      exact hold
  · exact List.nodup_cons.2 ⟨hpath, h.nodup⟩
  · exact List.isChain_cons_cons.2 ⟨hneeds, h.chain⟩
  · rintro other hother
    rcases List.mem_cons.1 hother with rfl | hother
    · apply (h.reaches node List.mem_cons_self).tail hneeds
    · apply h.reaches other hother
  · have hbelow := h.needs
    simp only [Survey.enter, List.forall_mem_cons] at hbelow ⊢
    exact ⟨fun _ hmem => hmem, hbelow.1.2, hbelow.2⟩
  · intro final hfinal
    apply h.completes final ((Graph.Completes.push_iff hnew).2 hfinal)
  · intro other hother
    by_cases heq : other = dependency
    · rw [heq]
      exact .inr (missing?_eq_none_iff.1 hmissing)
    · apply h.met
      simpa [path, Survey.enter, heq] using hother
  · rw [← h.resumes]
    apply (resume_enter hnew hpath hmissing).symm

/-- A turn of the loop keeps the invariant. -/
theorem step {survey next : Survey g} (h : Sound env world root order survey)
    (hstep : survey.step env world = .next next) :
  ∃ order', Sound env world root order' next
  := by
  match survey with
  | ⟨visits, []⟩ => simp [Survey.step] at hstep
  | ⟨visits, ⟨node, []⟩ :: below⟩ =>
    cases hstep
    exact ⟨order ++ [node], h.leave⟩
  | ⟨visits, ⟨node, dependency :: rest⟩ :: below⟩ =>
    simp only [Survey.step] at hstep
    split at hstep
    · next hvisit =>
      cases hstep
      exact ⟨order, h.pass ((h.done_iff dependency).1 hvisit)⟩
    · simp at hstep
    · next hvisit =>
      split at hstep
      · simp at hstep
      · next hmissing =>
        cases hstep
        exact ⟨order, h.enter hvisit hmissing⟩

end Sound

/-- Before the last turn of the loop from the root the invariant holds. -/
theorem exists_sound_last (env : Environment World) (world : World) (root : g.Id) :
  ∃ last order, Sound env world root order last ∧
    (last.step env world = .finished ∧ survey env world g root = none ∨
      ∃ e, last.step env world = .failed e ∧ survey env world g root = some e)
  := by
  obtain ⟨last, ⟨order, hsound⟩, hend⟩ := exists_last env world
    (fun survey => ∃ order, Sound env world root order survey)
    (fun _ _ ⟨_, hsound⟩ hstep => hsound.step hstep) ⟨[], Sound.start env world root⟩
  exact ⟨last, order, hsound, hend⟩

end Survey

end IncrementalBuild
