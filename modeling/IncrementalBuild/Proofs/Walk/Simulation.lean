import IncrementalBuild.Proofs.Walk.Recursion
import IncrementalBuild.Proofs.Walk.Run

/-!
# The loop of a build is the recursion

`Recursion.resume` is what is left of the recursion when the loop of a walk has a given
stack: the comparison that the frame on top owes, the dependencies it has yet to deal with,
and its end, and then the same of the frames below.  What is left has the same result before
and after every turn of the loop.  So a build from clear marks whose survey meets no error
has the result of the recursion from the root, and leaves the same account.
-/

namespace IncrementalBuild

namespace Recursion

variable {g : Graph} {World : Type} {env : Environment World}

/-- Brings one dependency of a node up to date, and weighs it. -/
def visitOne (env : Environment World) (node dependency : g.Id) :
    Routine (Account g World) Unit := do
  unless ((← get).marks dependency).visit = .done do
    env.visit (some node) dependency
  weigh node dependency

/-- What is left of the recursion when the loop has the given stack. -/
def resume (env : Environment World) : List (Frame g) → Routine (Account g World) Unit
  | [] => pure ()
  | frame :: below => do
    frame.resolved.forM (weigh frame.node)
    frame.pending.forM (visitOne env frame.node)
    depart env frame.node
    resume env below

theorem visit_eq (env : Environment World) (parent? : Option g.Id) (node : g.Id) :
  env.visit parent? node
    = arrive env parent? node >>= fun _ =>
      (g.dependencies node).forM (visitOne env node) >>= fun _ => depart env node
  := by
  rw [Environment.visit]
  rfl

section

variable {p : Progress g World} {node dependency : g.Id} {rest : List g.Id}
  {below : List (Frame g)}

theorem resume_owing :
  resume env (⟨node, rest, some dependency⟩ :: below)
    = weigh node dependency >>= fun _ => resume env (⟨node, rest, none⟩ :: below)
  := rfl

theorem resume_cons :
  resume env (⟨node, dependency :: rest, none⟩ :: below)
    = visitOne env node dependency >>= fun _ => resume env (⟨node, rest, none⟩ :: below)
  := by
  have hassoc := bind_assoc (visitOne env node dependency)
    (fun _ => rest.forM (visitOne env node))
    (fun _ => depart env node >>= fun _ => resume env below)
  apply hassoc

theorem resume_nil :
  resume env (⟨node, [], none⟩ :: below) = depart env node >>= fun _ => resume env below
  := rfl

theorem resume_pass (hvisit : (p.marks.mark dependency).visit = .done) :
  (resume env (⟨node, dependency :: rest, none⟩ :: below)).runFrom p.account
    = (resume env (⟨node, rest, some dependency⟩ :: below)).runFrom p.account
  := by
  have hone : (visitOne env node dependency).runFrom p.account
      = (weigh node dependency).runFrom p.account := by
    have hmarks : p.account.marks = p.marks.mark := rfl
    rw [visitOne, Routine.runFrom_get_bind, hmarks, if_pos hvisit]
  rw [resume_cons, resume_owing, Routine.runFrom_bind_congr hone]

/-- A dependency that is not done is entered, and what is left of the recursion then is a
frame of its own. -/
theorem resume_undone (hvisit : (p.marks.mark dependency).visit ≠ .done) :
  (resume env (⟨node, dependency :: rest, none⟩ :: below)).runFrom p.account
    = (arrive env (some node) dependency >>= fun _ =>
        resume env (Walk.frame g dependency :: ⟨node, rest, some dependency⟩ :: below)).runFrom
          p.account
  := by
  have hone : (visitOne env node dependency).runFrom p.account
      = (env.visit (some node) dependency >>= fun _ => weigh node dependency).runFrom
          p.account := by
    have hmarks : p.account.marks = p.marks.mark := rfl
    rw [visitOne, Routine.runFrom_get_bind, hmarks, if_neg hvisit]
  rw [resume_cons, Routine.runFrom_bind_congr hone, visit_eq]
  simp only [bind_assoc]
  rfl

theorem resume_paid (walk : Walk g World) :
  (resume env walk.paid.stack).runFrom walk.paid.progress.account
    = (resume env walk.stack).runFrom walk.progress.account
  := by
  match walk with
  | ⟨[], _⟩ => rfl
  | ⟨⟨_, _, none⟩ :: _, _⟩ => rfl
  | ⟨⟨node, pending, some dependency⟩ :: below, p⟩ =>
    have hweigh := Routine.runFrom_bind_of_ok
      (f := fun _ => resume env (⟨node, pending, none⟩ :: below)) (runFrom_weigh p node dependency)
    apply hweigh.symm

end

/-- What is left of the recursion has the same result after a turn of the loop. -/
theorem resume_turn {order order' : List g.Id} {final : List g.Id} {walk next : Walk g World}
    (hfollows : Walk.Follows final order walk) (hturn : Walk.Turn env order walk order' next) :
  (resume env walk.stack).runFrom walk.progress.account
    = (resume env next.stack).runFrom next.progress.account
  := by
  cases hturn with
  | @pass node dependency rest below p hmem =>
    apply resume_pass ((hfollows.done_iff dependency).2 hmem)
  | @descend node dependency rest below p q hvisit henter =>
    have harrive := runFrom_arrive p env (some node) dependency
    rw [henter] at harrive
    rw [resume_undone (by simp [hvisit])]
    apply Routine.runFrom_bind_of_ok harrive
  | @leave node below p q hfinish =>
    have hdepart := runFrom_depart p env node
    rw [hfinish] at hdepart
    rw [resume_nil]
    apply Routine.runFrom_bind_of_ok hdepart

/-- The error of a turn of the loop is the error of the recursion. -/
theorem resume_failure {walk : Walk g World} {e : Stop BuildError} {q : Progress g World}
    (hfailure : Walk.Failure env walk e q) :
  (resume env walk.stack).runFrom walk.progress.account = some (.error e, q.account)
  := by
  cases hfailure with
  | @enter node dependency rest below p q e hvisit henter =>
    have harrive := runFrom_arrive p env (some node) dependency
    rw [henter] at harrive
    rw [resume_undone (by simp [hvisit])]
    apply Routine.runFrom_bind_of_error harrive
  | @finish node below p q e hfinish =>
    have hdepart := runFrom_depart p env node
    rw [hfinish] at hdepart
    rw [resume_nil]
    apply Routine.runFrom_bind_of_error hdepart

/-- Every turn of the loop keeps the result of what is left of the recursion. -/
theorem kept_resume (env : Environment World) (final : List g.Id)
    (result : Option (Except (Stop BuildError) Unit × Account g World)) :
  Walk.Kept env final fun _ walk =>
    (resume env walk.stack).runFrom walk.progress.account = result
  where
  paid _ h := by rw [resume_paid, h]
  turn hfollows h hturn := by rw [← resume_turn hfollows hturn, h]

theorem account_start (g : Graph) (world : World) :
  (Progress.start (Marks.clear g) world).account = Account.start g world
  := by
  have hmarks : (Marks.clear g).mark = fun _ => .clear := by
    funext node
    apply Marks.mark_clear node
  simp [Progress.account, Progress.commands, Progress.start, Account.start, hmarks]

/-- The walk over a root that has a post-order has the result of the recursion. -/
theorem runFrom_visit (env : Environment World) (world : World) {root : g.Id} {final : List g.Id}
    (hpost : g.PostOrderOf root final) :
  (env.visit none root).runFrom (Account.start g world)
    = some ((walk env g root (Progress.start (Marks.clear g) world)).1,
        (walk env g root (Progress.start (Marks.clear g) world)).2.account)
  := by
  have hstart : ∀ p,
      (Progress.start (Marks.clear g) world).enter env none root = (.ok (), p) →
      (resume env [Walk.frame g root]).runFrom p.account
        = (env.visit none root).runFrom (Account.start g world) := by
    intro p henter
    have harrive := runFrom_arrive (Progress.start (Marks.clear g) world) env none root
    rw [henter, account_start] at harrive
    rw [visit_eq, Routine.runFrom_bind_of_ok harrive]
    simp only [resume, bind_pure_unit]
    rfl
  rcases (kept_resume env final _).walk_cases hpost hstart with
    ⟨e, q, henter, hwalk⟩ | ⟨q, hwalk, -, hresume⟩ |
      ⟨order, last, e, q, hwalk, -, hresume, hfailure⟩
  · have harrive := runFrom_arrive (Progress.start (Marks.clear g) world) env none root
    rw [henter, account_start] at harrive
    rw [hwalk, visit_eq]
    apply Routine.runFrom_bind_of_error harrive
  · rw [hwalk, ← hresume]
    rfl
  · rw [hwalk, ← hresume]
    apply resume_failure hfailure

end Recursion

/-- A build from clear marks whose survey meets no error has the result of the recursion,
and leaves the same account: the same world, the same marks on all nodes, the same commands
given to be executed, also if it ends with an error. -/
theorem runFrom_build {g : Graph} {World : Type} {env : Environment World} {world : World}
    {root : g.Id} (h : survey env world g root = none) :
  (Recursion.build env root).runFrom (Account.start g world)
    = some ((build env g (Marks.clear g) world root).result,
        (build env g (Marks.clear g) world root).progress.account)
  := by
  obtain ⟨final, hpost, -⟩ := exists_postOrderOf_of_survey h
  have hvisit := Recursion.runFrom_visit env world hpost
  rcases hwalk : walk env g root (Progress.start (Marks.clear g) world) with ⟨e | ⟨⟩, p⟩
  · rw [hwalk] at hvisit
    obtain ⟨hresult, hprogress⟩ := build_of_walk_error h hwalk
    rw [hresult, hprogress]
    apply Routine.runFrom_bind_of_error hvisit
  · rw [hwalk] at hvisit
    obtain ⟨hresult, hprogress⟩ := build_of_walk_ok h hwalk
    rw [hresult, hprogress, Recursion.build, Routine.runFrom_bind_of_ok hvisit]
    rfl

theorem runFrom_build_diamond :
  survey .touching ["app", "left", "source", "right"] Graph.diamond Graph.diamondRoot = none ∧
    (Recursion.build .touching Graph.diamondRoot).runFrom
        (Account.start Graph.diamond ["app", "left", "source", "right"])
      = some (.ok ⟨"app", 2, ["right", "app"]⟩,
          (build .touching Graph.diamond (Marks.clear Graph.diamond)
            ["app", "left", "source", "right"] Graph.diamondRoot).progress.account)
  := by
  have hsurvey := survey_of_build result_build_diamond
  constructor
  · apply hsurvey
  · rw [runFrom_build hsurvey, result_build_diamond]

end IncrementalBuild
