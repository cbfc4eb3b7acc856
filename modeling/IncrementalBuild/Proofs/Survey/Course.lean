import IncrementalBuild.Proofs.Graph.Traversal
import IncrementalBuild.Proofs.Survey.Invariant

/-!
# The turns of a survey

`Survey.course` is the loop of a survey with a record of the turns it takes: the surveys under
way at which it takes them.  The turns are those of a traversal that begins with no node visited.
-/

namespace IncrementalBuild

variable {g : Graph} {World : Type}

namespace Survey

variable {env : Environment World} {world : World} {survey next : Survey g}

/-- The loop of a survey: the surveys under way at which it takes a turn, from the first to the
last, and the error it meets, if any. -/
def course (env : Environment World) (world : World) (survey : Survey g) :
    List (Survey g) × Option (Stop BuildError) :=
  match _h : survey.step env world with
  | .finished => ([], none)
  | .failed e => ([survey], some e)
  | .next next =>
    let rest := next.course env world
    (survey :: rest.1, rest.2)
termination_by survey.remaining
decreasing_by exact remaining_lt_of_step _h

theorem course_of_finished (h : survey.step env world = .finished) :
  survey.course env world = ([], none)
  := by rw [course, h]

theorem course_of_failed {e : Stop BuildError} (h : survey.step env world = .failed e) :
  survey.course env world = ([survey], some e)
  := by rw [course, h]

theorem course_of_next (h : survey.step env world = .next next) :
  survey.course env world
    = (survey :: (next.course env world).1, (next.course env world).2)
  := by rw [course, h]

/-- The recorded loop is the loop. -/
theorem snd_course (env : Environment World) (world : World) (survey : Survey g) :
  (survey.course env world).2 = survey.run env world
  := by
  induction survey using run.induct env world with
  | case1 survey hstep => rw [course_of_finished hstep, run_of_finished hstep]
  | case2 survey e hstep => rw [course_of_failed hstep, run_of_failed hstep]
  | case3 survey next hstep ih => rw [course_of_next hstep, run_of_next hstep, ih]

/-- What there is of a survey for the graph. -/
def traversal (survey : Survey g) : Traversal g :=
  ⟨survey.visit, survey.stack.map fun branch => (branch.node, branch.pending)⟩

theorem traversal_set (visits : Vector Visit g.size) (stack below : List (Branch g)) (node : g.Id)
    (v : Visit) :
  traversal ⟨visits.set node.val v (g.id_lt_size node), stack⟩
    = ⟨Function.update (visit ⟨visits, below⟩) node v,
        stack.map fun branch => (branch.node, branch.pending)⟩
  := by
  rw [traversal, Traversal.mk.injEq]
  refine ⟨?_, rfl⟩
  funext other
  rw [visit_set, Function.update_apply]
  rfl

/-- A turn of the loop is a turn of a traversal. -/
theorem advance_of_step (h : survey.step env world = .next next) :
  Traversal.Advance survey.traversal next.traversal
  := by
  match survey with
  | ⟨visits, []⟩ => simp [step] at h
  | ⟨visits, ⟨node, []⟩ :: below⟩ =>
    cases h
    rw [traversal_set visits below (⟨node, []⟩ :: below)]
    exact .leave
  | ⟨visits, ⟨node, dependency :: rest⟩ :: below⟩ =>
    simp only [step] at h
    split at h
    · cases h
      exact .pass
    · simp at h
    · next hunvisited =>
      split at h
      · simp at h
      · cases h
        rw [enter, traversal_set visits _ (⟨node, dependency :: rest⟩ :: below)]
        exact .descend hunvisited

/-- The recorded turns are those that the loop takes. -/
theorem turns_course (env : Environment World) (world : World) (survey : Survey g) :
  Turns (fun turn next => turn.step env world = .next next)
    (fun turn => turn.step env world = .finished) survey (survey.course env world).1
  := by
  induction survey using run.induct env world with
  | case1 survey hstep =>
    rw [course_of_finished hstep]
    exact .nil
  | case2 survey e hstep =>
    rw [course_of_failed hstep]
    exact .single (by simp [hstep])
  | case3 survey next hstep ih =>
    rw [course_of_next hstep]
    exact .cons (by simp [hstep]) hstep ih

/-- A survey takes no more turns than the root reaches nodes and edges, whether it meets an error
or not. -/
theorem linear_course (env : Environment World) (world : World) (root : g.Id) :
  Traversal.Linear root (((start root).course env world).1.map traversal)
  := by
  apply (turns_course env world (start root)).linear
  · apply traversal_set _ _ []
  · exact fun _ _ => advance_of_step
  · intro turn hnil
    rw [traversal, List.map_eq_nil_iff] at hnil
    rw [step, hnil]

end Survey

end IncrementalBuild
