import IncrementalBuild.Build.Survey
import IncrementalBuild.Proofs.Routine

/-!
# The survey as a recursion

`Environment.inspect` is the depth-first walk of a survey written as a recursion over the
dependencies of a node.  Its state is the list of the nodes left behind, in the order in
which they were left; the nodes on the way to the one it is at are an argument.  It stops
with the first error it meets: a dependency that lies on the way, or one that is neither
declared nor there.

`Survey.resume` is what is left of the recursion when the loop of the survey has a given
stack.
-/

namespace IncrementalBuild

variable {g : Graph} {World : Type}

namespace Survey

/-- Stops unless a dependency is declared or has a file. -/
def demand (env : Environment World) (world : World) (parent dependency : g.Id) :
    Routine (List g.Id) Unit :=
  if (g.node dependency).declared then
    pure ()
  else
    match env.modified world (g.name dependency) with
    | .error e => throw (e.map .stat)
    | .ok none => throw (.failure (.missingPrerequisite (g.name dependency) (g.name parent)))
    | .ok (some _) => pure ()

end Survey

/-- Walks over a node, to which `path` leads, the end of it first. -/
def Environment.inspect (env : Environment World) (world : World) (path : List g.Id)
    (node : g.Id) : Routine (List g.Id) Unit := do
  (g.dependencies node).forM fun dependency => do
    unless dependency ∈ (← get) do
      if dependency ∈ node :: path then
        throw (.failure (.cyclicDependency (g.cycle (node :: path).reverse dependency)))
      Survey.demand env world node dependency
      env |>.inspect world (node :: path) dependency
  modify (· ++ [node])
partial_fixpoint

namespace Survey

/-- Walks over one dependency of a node. -/
def inspectOne (env : Environment World) (world : World) (path : List g.Id)
    (node dependency : g.Id) : Routine (List g.Id) Unit := do
  unless dependency ∈ (← get) do
    if dependency ∈ node :: path then
      throw (.failure (.cyclicDependency (g.cycle (node :: path).reverse dependency)))
    demand env world node dependency
    env.inspect world (node :: path) dependency

/-- What is left of the recursion when the loop has the given stack. -/
def resume (env : Environment World) (world : World) : List (Branch g) → Routine (List g.Id) Unit
  | [] => pure ()
  | branch :: below => do
    branch.pending.forM (inspectOne env world (below.map (·.node)) branch.node)
    modify (· ++ [branch.node])
    resume env world below

theorem inspect_eq (env : Environment World) (world : World) (path : List g.Id) (node : g.Id) :
  env.inspect world path node
    = (g.dependencies node).forM (inspectOne env world path node)
      >>= fun _ => modify (· ++ [node])
  := by
  rw [Environment.inspect]
  rfl

/-! ### One dependency -/

theorem runFrom_demand_of_none {env : Environment World} {world : World}
    {parent dependency : g.Id} (h : missing? env world parent dependency = none)
    (order : List g.Id) :
  (demand env world parent dependency).runFrom order = some (.ok (), order)
  := by
  unfold missing? at h
  unfold demand
  split at h
  · next hdeclared => simp [hdeclared]
  · next hdeclared =>
    split at h
    · simp at h
    · next hfile => simp [hdeclared, hfile]
    · simp at h

theorem runFrom_demand_of_some {env : Environment World} {world : World}
    {parent dependency : g.Id} {e : Stop BuildError}
    (h : missing? env world parent dependency = some e)
    (order : List g.Id) :
  (demand env world parent dependency).runFrom order = some (.error e, order)
  := by
  unfold missing? at h
  unfold demand
  split at h
  · simp at h
  · next hdeclared =>
    split at h
    · next hfile =>
      cases h
      simp [hdeclared, hfile]
    · simp at h
    · next hfile =>
      cases h
      simp [hdeclared, hfile]

section

variable {env : Environment World} {world : World} {order path : List g.Id}
  {node dependency : g.Id}

theorem runFrom_inspectOne_of_mem (hmem : dependency ∈ order) :
  (inspectOne env world path node dependency).runFrom order = some (.ok (), order)
  := by
  rw [inspectOne, Routine.runFrom_get_bind, if_pos hmem, Routine.runFrom_pure]

theorem runFrom_inspectOne_of_cycle (hnew : dependency ∉ order)
    (hpath : dependency ∈ node :: path) :
  (inspectOne env world path node dependency).runFrom order
    = some
      (.error (.failure (.cyclicDependency (g.cycle (node :: path).reverse dependency))), order)
  := by
  rw [inspectOne, Routine.runFrom_get_bind, if_neg hnew, if_pos hpath,
    Routine.runFrom_throw_bind]

theorem runFrom_inspectOne_of_missing {e : Stop BuildError} (hnew : dependency ∉ order)
    (hpath : dependency ∉ node :: path) (hmissing : missing? env world node dependency = some e) :
  (inspectOne env world path node dependency).runFrom order = some (.error e, order)
  := by
  rw [inspectOne, Routine.runFrom_get_bind, if_neg hnew, if_neg hpath]
  apply Routine.runFrom_bind_of_error (runFrom_demand_of_some hmissing order)

theorem runFrom_inspectOne_of_new (hnew : dependency ∉ order) (hpath : dependency ∉ node :: path)
    (hmissing : missing? env world node dependency = none) :
  (inspectOne env world path node dependency).runFrom order
    = (env.inspect world (node :: path) dependency).runFrom order
  := by
  rw [inspectOne, Routine.runFrom_get_bind, if_neg hnew, if_neg hpath]
  apply Routine.runFrom_bind_of_ok (runFrom_demand_of_none hmissing order)

/-! ### The turns of the loop -/

variable {rest : List g.Id} {below : List (Branch g)}

theorem resume_cons :
  resume env world (⟨node, dependency :: rest⟩ :: below)
    = inspectOne env world (below.map (·.node)) node dependency
      >>= fun _ => resume env world (⟨node, rest⟩ :: below)
  := bind_assoc _ _ _

theorem resume_enter (hnew : dependency ∉ order)
    (hpath : dependency ∉ node :: below.map (·.node))
    (hmissing : missing? env world node dependency = none) :
  (resume env world (⟨node, dependency :: rest⟩ :: below)).runFrom order
    = (resume env world
        (⟨dependency, g.dependencies dependency⟩ :: ⟨node, rest⟩ :: below)).runFrom order
  := by
  rw [resume_cons, Routine.runFrom_bind_congr (runFrom_inspectOne_of_new hnew hpath hmissing),
    inspect_eq, bind_assoc]
  rfl

end

end Survey

end IncrementalBuild
