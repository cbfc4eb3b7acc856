import IncrementalBuild.Build.Environment
import IncrementalBuild.Build.Mark

/-!
# The survey before a build

Before a build runs anything, `survey` walks over the part of the graph that can be
reached from the root, depth first and dependencies in order.  It looks for a cycle, and
for a dependency that is not declared and has no file, and answers with the error it meets
first.  The root itself need not have a file.

The walk is a loop over a stack of branches, the current one on top; a branch is a node
and the dependencies of it that are still to be walked over.  `Survey.step` is one turn of
the loop.
-/

namespace IncrementalBuild

/-- The names along a cycle, which an edge from the last node of a path back to the node
`reentered` closes: the path from that node on, and the node again. -/
def Graph.cycle (g : Graph) (path : List g.Id) (reentered : g.Id) : List String :=
  (path.dropWhile (· ≠ reentered)).map g.name ++ [g.name reentered]

/-- A node on the path of a survey and its dependencies yet to be walked over. -/
structure Branch (g : Graph) where
  node : g.Id
  pending : List g.Id

/-- A survey under way: how far it has got with each node, and its path, the end of it
first. -/
structure Survey (g : Graph) where
  visits : Vector Visit g.size
  stack : List (Branch g)

namespace Survey

variable {g : Graph} {World : Type}

/-- The outcome of a turn of the loop: there is nothing left to do, or an error has been
met, or the survey goes on. -/
inductive Step (g : Graph)
  | finished
  | failed (e : Stop BuildError)
  | next (survey : Survey g)

/-- The survey that comes to a node. -/
def enter (survey : Survey g) (node : g.Id) : Survey g where
  visits := survey.visits.set node.val .inProgress (g.id_lt_size node)
  stack := ⟨node, g.dependencies node⟩ :: survey.stack

/-- The survey of nothing, which comes to the root. -/
def start (root : g.Id) : Survey g :=
  enter ⟨Vector.replicate g.size .unvisited, []⟩ root

/-- The error there is with a dependency of a node, if it is neither declared nor there. -/
def missing? (env : Environment World) (world : World) (parent dependency : g.Id) :
    Option (Stop BuildError) :=
  if (g.node dependency).declared then
    none
  else
    match env.modified world (g.name dependency) with
    | .error e => some (e.map .stat)
    | .ok (some _) => none
    | .ok none => some (.failure (.missingPrerequisite (g.name dependency) (g.name parent)))

/-- One turn of the loop. -/
def step (env : Environment World) (world : World) (survey : Survey g) : Step g :=
  match survey.stack with
  | [] => .finished
  | ⟨node, []⟩ :: below =>
    .next ⟨survey.visits.set node.val .done (g.id_lt_size node), below⟩
  | ⟨node, dependency :: rest⟩ :: below =>
    let path := ⟨node, rest⟩ :: below
    have h := g.id_lt_size dependency
    match survey.visits[dependency.val] with
    | .done => .next ⟨survey.visits, path⟩
    | .inProgress =>
      .failed (.failure (.cyclicDependency (g.cycle (path.map (·.node)).reverse dependency)))
    | .unvisited =>
      match missing? env world node dependency with
      | some e => .failed e
      | none => .next (enter ⟨survey.visits, path⟩ dependency)

/-- The number of nodes the survey has not come to, and the number of turns that the
branches on its path will still take. -/
def remaining (survey : Survey g) : Nat × Nat :=
  (survey.visits.countP (· = .unvisited),
    (survey.stack.map (·.pending.length + 1)).foldr (· + ·) 0)

/-- Every turn of the loop brings the survey nearer to its end. -/
theorem remaining_lt_of_step {env : Environment World} {world : World} {survey next : Survey g}
    (h : survey.step env world = .next next) :
  Prod.Lex (· < ·) (· < ·) next.remaining survey.remaining
  := by
  obtain ⟨visits, stack⟩ := survey
  match stack with
  | [] => simp [step] at h
  | ⟨node, []⟩ :: below =>
    simp only [step, Step.next.injEq] at h
    subst h
    rw [Prod.lex_def]
    have hle : (visits.set node.val .done node.isLt).countP (· = .unvisited) ≤
        visits.countP (· = .unvisited) := countP_set_le node.isLt (by simp)
    simp only [remaining, List.map_cons, List.foldr_cons, List.length_nil]
    omega
  | ⟨node, dependency :: rest⟩ :: below =>
    simp only [step] at h
    rw [Prod.lex_def]
    split at h
    · simp only [Step.next.injEq] at h
      subst h
      right
      simp [remaining]
    · simp at h
    · next hvisit =>
      split at h
      · simp at h
      · simp only [Step.next.injEq] at h
        subst h
        left
        exact countP_set_lt dependency.isLt (by simp [hvisit]) (by simp)

/-- The error a survey under way meets, if any. -/
def run (env : Environment World) (world : World) (survey : Survey g) :
    Option (Stop BuildError) :=
  match _h : survey.step env world with
  | .finished => none
  | .failed e => some e
  | .next survey => survey.run env world
termination_by survey.remaining
decreasing_by exact remaining_lt_of_step _h

end Survey

/-- The error met first on a walk over what can be reached from the root, if any. -/
def survey {World : Type} (env : Environment World) (world : World) (g : Graph) (root : g.Id) :
    Option (Stop BuildError) :=
  (Survey.start root).run env world

end IncrementalBuild
