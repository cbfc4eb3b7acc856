import IncrementalBuild.Proofs.Graph.Traversal
import IncrementalBuild.Proofs.Walk.Turn

/-!
# The turns of a walk

`Walk.course` is the loop of a walk with a record of the turns it takes: the walks under way at
which it takes them.  Whatever the marks are that it begins with, the turns are those of a
traversal, so there are no more of them than the root reaches nodes and edges.
-/

namespace IncrementalBuild.Walk

variable {g : Graph} {World : Type} {env : Environment World} {walk next : Walk g World}
  {p q : Progress g World} {node root : g.Id}

/-- The loop of a walk: the walks under way at which it takes a turn, from the first to the last,
and what `Walk.run` gives. -/
def course (env : Environment World) (walk : Walk g World) :
    List (Walk g World) × Except (Stop BuildError) Unit × Progress g World :=
  match _h : walk.step env with
  | .finished p => ([], .ok (), p)
  | .failed e p => ([walk], .error e, p)
  | .next next =>
    let rest := next.course env
    (walk :: rest.1, rest.2)
termination_by walk.remaining
decreasing_by exact remaining_lt_of_step _h

/-- The turns of a walk from a root, and what `walk` gives; there are none if the root cannot be
entered. -/
def courseFrom (env : Environment World) (root : g.Id) (p : Progress g World) :
    List (Walk g World) × Except (Stop BuildError) Unit × Progress g World :=
  match p.enter env none root with
  | (.error e, p) => ([], .error e, p)
  | (.ok (), p) => course env ⟨[frame g root], p⟩

theorem course_of_finished (h : walk.step env = .finished p) :
  walk.course env = ([], .ok (), p)
  := by rw [course, h]

theorem course_of_failed {e : Stop BuildError} (h : walk.step env = .failed e p) :
  walk.course env = ([walk], .error e, p)
  := by rw [course, h]

theorem course_of_next (h : walk.step env = .next next) :
  walk.course env = (walk :: (next.course env).1, (next.course env).2)
  := by rw [course, h]

/-- The recorded loop is the loop. -/
theorem snd_course (env : Environment World) (walk : Walk g World) :
  (walk.course env).2 = walk.run env
  := by
  induction walk using run.induct env with
  | case1 walk p hstep => rw [course_of_finished hstep, run_of_finished hstep]
  | case2 walk e p hstep => rw [course_of_failed hstep, run_of_failed hstep]
  | case3 walk next hstep ih => rw [course_of_next hstep, run_of_next hstep, ih]

/-- The recorded walk is the walk. -/
theorem snd_courseFrom (env : Environment World) (root : g.Id) (p : Progress g World) :
  (courseFrom env root p).2 = IncrementalBuild.walk env g root p
  := by
  unfold courseFrom IncrementalBuild.walk
  cases p.enter env none root with
  | mk result q =>
    cases result with
    | error e => rfl
    | ok => apply snd_course

/-! ### The walk as a traversal -/

/-- What there is of a walk for the graph. -/
def traversal (walk : Walk g World) : Traversal g :=
  ⟨fun node => (walk.progress.marks.mark node).visit, walk.tasks⟩

theorem traversal_paid (walk : Walk g World) :
  walk.paid.traversal = walk.traversal
  := by simp [traversal]

/-- To enter a node is to visit it. -/
theorem visit_of_entered {found : Option Stamp} (h : Progress.Entered env node found p q) :
  (fun other => (q.marks.mark other).visit)
    = Function.update (fun other => (p.marks.mark other).visit) node .inProgress
  := by
  funext other
  rw [Function.update_apply, h.mark]
  split <;> rfl

/-- To finish a node is to be done with it. -/
theorem visit_of_finish (h : p.finish env node = (.ok (), q)) :
  (fun other => (q.marks.mark other).visit)
    = Function.update (fun other => (p.marks.mark other).visit) node .done
  := by
  funext other
  rw [Function.update_apply]
  split
  · next heq => rw [heq, Progress.visit_finish_self h]
  · next hne => rw [Progress.mark_finish_of_ne h hne]

/-- A move of the loop is a turn of a traversal. -/
theorem Move.advance (h : Move env walk next) :
  Traversal.Advance walk.traversal next.traversal
  := by
  cases h with
  | pass => exact .pass
  | descend hvisit henter =>
    obtain ⟨found, hentered⟩ := Progress.entered_of_enter henter
    rw [traversal, traversal, visit_of_entered hentered]
    exact .descend hvisit
  | leave hfinish =>
    rw [traversal, traversal, visit_of_finish hfinish]
    exact .leave

theorem traversal_of_enter {parent? : Option g.Id} (h : p.enter env parent? root = (.ok (), q)) :
  traversal ⟨[frame g root], q⟩ = .start root fun node => (p.marks.mark node).visit
  := by
  obtain ⟨found, hentered⟩ := Progress.entered_of_enter h
  rw [traversal, visit_of_entered hentered]
  rfl

/-! ### The turns -/

/-- The recorded turns are those that the loop takes. -/
theorem turns_course (env : Environment World) (walk : Walk g World) :
  Turns (fun turn next => turn.step env = .next next) (fun turn => ∃ p, turn.step env = .finished p)
    walk (walk.course env).1
  := by
  induction walk using run.induct env with
  | case1 walk p hstep =>
    rw [course_of_finished hstep]
    exact .nil
  | case2 walk e p hstep =>
    rw [course_of_failed hstep]
    exact .single (by simp [hstep])
  | case3 walk next hstep ih =>
    rw [course_of_next hstep]
    exact .cons (by simp [hstep]) hstep ih

/-- A walk takes no more turns than the root reaches nodes and edges, whatever the marks are that
it begins with, and whether it meets an error or not. -/
theorem linear_courseFrom (env : Environment World) (root : g.Id) (p : Progress g World) :
  Traversal.Linear root ((courseFrom env root p).1.map traversal)
  := by
  unfold courseFrom
  split
  · exact ⟨Nat.zero_le _, by simp, by simp⟩
  · next q henter =>
    apply (turns_course env _).linear (traversal_of_enter henter)
    · intro turn next hstep
      rw [← traversal_paid]
      exact (move_of_step hstep).advance
    · intro turn hnil
      obtain ⟨stack, p⟩ := turn
      obtain rfl : stack = [] := by simpa [traversal, tasks] using hnil
      exact ⟨p, rfl⟩

end IncrementalBuild.Walk
