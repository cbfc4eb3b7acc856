import IncrementalBuild.Proofs.Graph.PostOrder
import IncrementalBuild.Proofs.Walk.Effect

/-!
# The turns of a walk

`Walk.Move` says what a turn of the loop does, whatever the marks are, and `Walk.Halt` how it
ends the walk with an error.

A walk over a root that has a post-order, begun with no node visited, `Follows` the
post-order: the nodes left behind are the beginning of it, those in progress are the ones on
the stack, all others have clear marks, and what is left of the walk completes it.  So a
dependency that is next has been left behind or has not been visited, and a move of the walk
is one of three things, the cases of `Walk.Turn`; if a turn ends the walk with an error it
fails in one of two ways, the cases of `Walk.Failure`, and not because of a cycle.

A turn begins with the comparison that the frame on top still owes; `Walk.paid` is the walk
after it.  `Walk.Kept` collects what has to be shown of a property that every turn keeps,
and `Walk.Kept.result` says what then holds at the end of a walk.
-/

namespace IncrementalBuild.Walk

variable {g : Graph} {World : Type}

/-! ### The last turn -/

section

variable {env : Environment World} {walk next : Walk g World} {p : Progress g World}

theorem run_of_finished (h : walk.step env = .finished p) :
  walk.run env = (.ok (), p)
  := by rw [run, h]

theorem run_of_failed {e : Stop BuildError} (h : walk.step env = .failed e p) :
  walk.run env = (.error e, p)
  := by rw [run, h]

theorem run_of_next (h : walk.step env = .next next) :
  walk.run env = next.run env
  := by rw [run, h]

/-- The loop ends with an empty stack. -/
theorem eq_nil_of_finished (h : walk.step env = .finished p) :
  walk = ⟨[], p⟩
  := by
  match walk with
  | ⟨[], q⟩ =>
    cases h
    rfl
  | ⟨⟨node, [], resolved⟩ :: below, q⟩ =>
    simp only [step] at h
    split at h <;> simp at h
  | ⟨⟨node, dependency :: rest, resolved⟩ :: below, q⟩ =>
    simp only [step] at h
    split at h
    · simp at h
    · simp at h
    · split at h <;> simp at h

end

/-- What every turn of the loop keeps holds before its last turn, which gives the result. -/
theorem exists_last (env : Environment World) (Inv : Walk g World → Prop)
    (hnext : ∀ walk next, Inv walk → walk.step env = .next next → Inv next)
    {walk : Walk g World} (h : Inv walk) :
  (∃ p, Inv ⟨[], p⟩ ∧ walk.run env = (.ok (), p)) ∨
    ∃ last e p, Inv last ∧ last.step env = .failed e p ∧ walk.run env = (.error e, p)
  := by
  induction walk using Walk.run.induct env with
  | case1 walk p hstep =>
    obtain rfl := eq_nil_of_finished hstep
    exact .inl ⟨p, h, run_of_finished hstep⟩
  | case2 walk e p hstep => exact .inr ⟨walk, e, p, h, hstep, run_of_failed hstep⟩
  | case3 walk next hstep ih =>
    rw [run_of_next hstep]
    apply ih (hnext walk next h hstep)

/-! ### The comparison that is owed -/

/-- The walk after the comparison that its top frame owes. -/
def paid : Walk g World → Walk g World
  | ⟨[], p⟩ => ⟨[], p⟩
  | ⟨⟨node, pending, resolved⟩ :: below, p⟩ =>
    ⟨⟨node, pending, none⟩ :: below, Frame.compare ⟨node, pending, resolved⟩ p⟩

theorem step_paid (env : Environment World) (walk : Walk g World) :
  walk.paid.step env = walk.step env
  := by
  match walk with
  | ⟨[], _⟩ => rfl
  | ⟨⟨_, _, _⟩ :: _, _⟩ => rfl

/-- The nodes on the way from the root, the end of the way first. -/
def path (walk : Walk g World) : List g.Id :=
  walk.stack.map (·.node)

/-- The nodes on the way with the dependencies they have yet to deal with. -/
def tasks (walk : Walk g World) : List (g.Id × List g.Id) :=
  walk.stack.map fun frame => (frame.node, frame.pending)

@[simp]
theorem path_paid (walk : Walk g World) :
  walk.paid.path = walk.path
  := by
  match walk with
  | ⟨[], _⟩ => rfl
  | ⟨⟨_, _, _⟩ :: _, _⟩ => rfl

@[simp]
theorem tasks_paid (walk : Walk g World) :
  walk.paid.tasks = walk.tasks
  := by
  match walk with
  | ⟨[], _⟩ => rfl
  | ⟨⟨_, _, _⟩ :: _, _⟩ => rfl

theorem paid_paid (walk : Walk g World) :
  walk.paid.paid = walk.paid
  := by
  match walk with
  | ⟨[], _⟩ => rfl
  | ⟨⟨_, _, _⟩ :: _, _⟩ => rfl

@[simp]
theorem visit_paid (walk : Walk g World) (node : g.Id) :
  (walk.paid.progress.marks.mark node).visit = (walk.progress.marks.mark node).visit
  := by
  match walk with
  | ⟨[], _⟩ => rfl
  | ⟨⟨_, _, none⟩ :: _, _⟩ => rfl
  | ⟨⟨_, _, some _⟩ :: _, _⟩ => exact Progress.visit_compare _ _ _ _

theorem mark_paid_of_not_mem {walk : Walk g World} {node : g.Id} (h : node ∉ walk.path) :
  walk.paid.progress.marks.mark node = walk.progress.marks.mark node
  := by
  match walk with
  | ⟨[], _⟩ => rfl
  | ⟨⟨_, _, none⟩ :: _, _⟩ => rfl
  | ⟨⟨_, _, some _⟩ :: _, _⟩ =>
    apply Progress.mark_compare_of_ne _ _ _ (List.ne_of_not_mem_cons h)

/-! ### A turn of the loop -/

/-- What a turn of the loop does, the comparison that is owed apart: it passes over a dependency
that is done, or goes down to one that has not been visited, or leaves the node on top. -/
inductive Move (env : Environment World) : Walk g World → Walk g World → Prop
  | pass {node dependency : g.Id} {rest : List g.Id} {below : List (Frame g)}
      {p : Progress g World} :
    (p.marks.mark dependency).visit = .done →
      Move env ⟨⟨node, dependency :: rest, none⟩ :: below, p⟩
        ⟨⟨node, rest, some dependency⟩ :: below, p⟩
  | descend {node dependency : g.Id} {rest : List g.Id} {below : List (Frame g)}
      {p q : Progress g World} :
    (p.marks.mark dependency).visit = .unvisited →
      p.enter env (some node) dependency = (.ok (), q) →
      Move env ⟨⟨node, dependency :: rest, none⟩ :: below, p⟩
        ⟨frame g dependency :: ⟨node, rest, some dependency⟩ :: below, q⟩
  | leave {node : g.Id} {below : List (Frame g)} {p q : Progress g World} :
    p.finish env node = (.ok (), q) → Move env ⟨⟨node, [], none⟩ :: below, p⟩ ⟨below, q⟩

/-- How a turn of the loop ends a walk with an error, if it has met no cycle: a dependency
cannot be entered, or the node on top cannot be finished. -/
inductive Failure (env : Environment World) :
    Walk g World → Stop BuildError → Progress g World → Prop
  | enter {node dependency : g.Id} {rest : List g.Id} {below : List (Frame g)}
      {p q : Progress g World} {e : Stop BuildError} :
    (p.marks.mark dependency).visit = .unvisited →
      p.enter env (some node) dependency = (.error e, q) →
      Failure env ⟨⟨node, dependency :: rest, none⟩ :: below, p⟩ e q
  | finish {node : g.Id} {below : List (Frame g)} {p q : Progress g World} {e : Stop BuildError} :
    p.finish env node = (.error e, q) → Failure env ⟨⟨node, [], none⟩ :: below, p⟩ e q

/-- How a turn of the loop ends a walk with an error: a dependency is in progress, or the turn
fails. -/
inductive Halt (env : Environment World) :
    Walk g World → Stop BuildError → Progress g World → Prop
  | cycle {node dependency : g.Id} {rest : List g.Id} {below : List (Frame g)}
      {p : Progress g World} :
    (p.marks.mark dependency).visit = .inProgress →
      Halt env ⟨⟨node, dependency :: rest, none⟩ :: below, p⟩
        (.failure (.cyclicDependency (g.cycle (node :: below.map (·.node)).reverse dependency))) p
  | failure {walk : Walk g World} {e : Stop BuildError} {q : Progress g World} :
    Failure env walk e q → Halt env walk e q

section

variable {env : Environment World} {walk next : Walk g World}

theorem move_of_step (h : walk.step env = .next next) :
  Move env walk.paid next
  := by
  rw [← step_paid] at h
  match walk with
  | ⟨[], _⟩ => simp [paid, step] at h
  | ⟨⟨node, [], resolved⟩ :: below, p⟩ =>
    simp only [paid, step, Frame.compare] at h
    split at h
    · next hfinish =>
      cases h
      exact .leave hfinish
    · simp at h
  | ⟨⟨node, dependency :: rest, resolved⟩ :: below, p⟩ =>
    simp only [paid, step] at h
    split at h
    · next hvisit =>
      cases h
      exact .pass hvisit
    · simp at h
    · next hvisit =>
      split at h
      · next henter =>
        cases h
        exact .descend hvisit henter
      · simp at h

theorem halt_of_step {e : Stop BuildError} {q : Progress g World}
    (h : walk.step env = .failed e q) :
  Halt env walk.paid e q
  := by
  rw [← step_paid] at h
  match walk with
  | ⟨[], _⟩ => simp [paid, step] at h
  | ⟨⟨node, [], resolved⟩ :: below, p⟩ =>
    simp only [paid, step, Frame.compare] at h
    split at h
    · simp at h
    · next hfinish =>
      cases h
      exact .failure (.finish hfinish)
  | ⟨⟨node, dependency :: rest, resolved⟩ :: below, p⟩ =>
    simp only [paid, step] at h
    split at h
    · simp at h
    · next hvisit =>
      cases h
      exact .cycle hvisit
    · next hvisit =>
      split at h
      · simp at h
      · next henter =>
        cases h
        exact .failure (.enter hvisit henter)

end

/-! ### Following a post-order -/

/-- A walk that has left behind the nodes `order` is to leave nodes behind in the order
`final`. -/
structure Follows (final order : List g.Id) (walk : Walk g World) : Prop where
  nodup : final.Nodup
  done_iff : ∀ node, (walk.progress.marks.mark node).visit = .done ↔ node ∈ order
  inProgress_iff : ∀ node, (walk.progress.marks.mark node).visit = .inProgress ↔ node ∈ walk.path
  clear : ∀ node, (walk.progress.marks.mark node).visit = .unvisited →
    walk.progress.marks.mark node = .clear
  completes : g.Completes final order walk.tasks

/-- What a turn of the loop does, the comparison that is owed apart, and how it changes the
list of the nodes left behind: it passes over a dependency that has been left behind, or
goes down to one that has not been visited, or leaves the node on top. -/
inductive Turn (env : Environment World) :
    List g.Id → Walk g World → List g.Id → Walk g World → Prop
  | pass {order : List g.Id} {node dependency : g.Id} {rest : List g.Id}
      {below : List (Frame g)} {p : Progress g World} :
    dependency ∈ order →
      Turn env order ⟨⟨node, dependency :: rest, none⟩ :: below, p⟩
        order ⟨⟨node, rest, some dependency⟩ :: below, p⟩
  | descend {order : List g.Id} {node dependency : g.Id} {rest : List g.Id}
      {below : List (Frame g)} {p q : Progress g World} :
    (p.marks.mark dependency).visit = .unvisited →
      p.enter env (some node) dependency = (.ok (), q) →
      Turn env order ⟨⟨node, dependency :: rest, none⟩ :: below, p⟩
        order ⟨frame g dependency :: ⟨node, rest, some dependency⟩ :: below, q⟩
  | leave {order : List g.Id} {node : g.Id} {below : List (Frame g)} {p q : Progress g World} :
    p.finish env node = (.ok (), q) →
      Turn env order ⟨⟨node, [], none⟩ :: below, p⟩ (order ++ [node]) ⟨below, q⟩

namespace Follows

variable {env : Environment World} {final order order' : List g.Id}
  {walk next : Walk g World}

theorem paid (h : Follows final order walk) :
  Follows final order walk.paid
  where
  nodup := h.nodup
  done_iff := by simpa using h.done_iff
  inProgress_iff := by simpa using h.inProgress_iff
  clear := by
    intro node hvisit
    rw [visit_paid] at hvisit
    rw [mark_paid_of_not_mem, h.clear node hvisit]
    intro hmem
    simp [(h.inProgress_iff node).2 hmem] at hvisit
  completes := by simpa using h.completes

/-- A node that is not done has not been left behind. -/
theorem not_mem_order {node : g.Id} (h : Follows final order walk)
    (hvisit : (walk.progress.marks.mark node).visit ≠ .done) :
  node ∉ order
  := fun hmem => hvisit ((h.done_iff node).2 hmem)

/-- A node that is not in progress does not lie on the way. -/
theorem not_mem_path {node : g.Id} (h : Follows final order walk)
    (hvisit : (walk.progress.marks.mark node).visit ≠ .inProgress) :
  node ∉ walk.path
  := fun hmem => hvisit ((h.inProgress_iff node).2 hmem)

/-- A node on the way has not been left behind. -/
theorem not_mem_order_of_mem_path {node : g.Id} (h : Follows final order walk)
    (hmem : node ∈ walk.path) :
  node ∉ order
  := h.not_mem_order (by simp [(h.inProgress_iff node).2 hmem])

/-- A node that has not been left behind when nothing is left to do is as it was. -/
theorem eq_clear {node : g.Id} {p : Progress g World} (h : Follows final order ⟨[], p⟩)
    (hnode : node ∉ order) :
  p.marks.mark node = .clear
  := by
  apply h.clear
  cases hvisit : (p.marks.mark node).visit with
  | unvisited => rfl
  | inProgress => exact absurd ((h.inProgress_iff node).1 hvisit) List.not_mem_nil
  | done => exact absurd ((h.done_iff node).1 hvisit) hnode

/-- A dependency that is next does not lie on the way. -/
theorem visit_ne_inProgress {node dependency : g.Id} {rest : List g.Id}
    {resolved : Option g.Id} {below : List (Frame g)} {p : Progress g World}
    (h : Follows final order ⟨⟨node, dependency :: rest, resolved⟩ :: below, p⟩) :
  (p.marks.mark dependency).visit ≠ .inProgress
  := by
  intro hvisit
  have hnew : dependency ∉ order := h.not_mem_order (by simp [hvisit])
  apply Graph.Completes.not_mem_stack h.nodup hnew h.completes
  have hmem := (h.inProgress_iff dependency).1 hvisit
  simpa [path, Function.comp_def] using hmem

/-- A turn is a move. -/
theorem move_of_turn (h : Follows final order walk) (hturn : Turn env order walk order' next) :
  Move env walk next
  := by
  cases hturn with
  | pass hmem => exact .pass ((h.done_iff _).2 hmem)
  | descend hvisit henter => exact .descend hvisit henter
  | leave hfinish => exact .leave hfinish

/-- What a turn does is what the loop does. -/
theorem step_of_turn (h : Follows final order walk) (hturn : Turn env order walk order' next) :
  walk.step env = .next next
  := by
  cases hturn with
  | pass hmem => simp [step, Frame.compare, (h.done_iff _).2 hmem]
  | descend hvisit henter => simp [step, Frame.compare, hvisit, henter]
  | leave hfinish => simp [step, Frame.compare, hfinish]

theorem turn_of_step (h : Follows final order walk) (hstep : walk.step env = .next next) :
  ∃ order', Turn env order walk.paid order' next
  := by
  have hpaid := h.paid
  have hmove := move_of_step hstep
  generalize walk.paid = walk at hpaid hmove
  cases hmove with
  | pass hvisit => exact ⟨_, .pass ((hpaid.done_iff _).1 hvisit)⟩
  | descend hvisit henter => exact ⟨_, .descend hvisit henter⟩
  | leave hfinish => exact ⟨_, .leave hfinish⟩

theorem failure_of_step {e : Stop BuildError} {q : Progress g World}
    (h : Follows final order walk) (hstep : walk.step env = .failed e q) :
  Failure env walk.paid e q
  := by
  have hpaid := h.paid
  have hhalt := halt_of_step hstep
  generalize walk.paid = walk at hpaid hhalt
  cases hhalt with
  | cycle hvisit => exact absurd hvisit hpaid.visit_ne_inProgress
  | failure hfailure => exact hfailure

/-- No node lies on the way twice. -/
theorem nodup_path (h : Follows final order walk) :
  walk.path.Nodup
  := by
  obtain ⟨added, rfl, hsub⟩ := h.completes.exists_append
  have hpath : walk.path = walk.tasks.map Prod.fst := by simp [path, tasks, Function.comp_def]
  rw [hpath]
  apply hsub.nodup h.nodup.of_append_right

theorem not_mem_below {node : g.Id} {pending : List g.Id} {resolved : Option g.Id}
    {below : List (Frame g)} {p : Progress g World}
    (h : Follows final order ⟨⟨node, pending, resolved⟩ :: below, p⟩) :
  node ∉ below.map (·.node)
  := (List.nodup_cons.1 h.nodup_path).1

/-- The walk that enters the root follows the post-order of the root. -/
theorem start {root : g.Id} {world : World} {p : Progress g World}
    (hpost : g.PostOrderOf root final)
    (henter : (Progress.start (Marks.clear g) world).enter env none root = (.ok (), p)) :
  Follows final [] ⟨[frame g root], p⟩
  := by
  obtain ⟨found, hentered⟩ := Progress.entered_of_enter henter
  refine ⟨hpost.nodup, ?_, ?_, ?_, Graph.Completes.root_iff.2 hpost⟩
  · intro node
    rw [hentered.mark]
    split <;> simp [Progress.start, Mark.clear]
  · intro node
    rw [hentered.mark]
    split
    · next heq => simp [path, frame, heq]
    · next hne => simp [path, frame, hne, Progress.start, Mark.clear]
  · intro node
    rw [hentered.mark]
    split <;> simp [Progress.start]

/-- A walk still follows the post-order after a turn of the loop. -/
theorem turn (h : Follows final order walk) (hturn : Turn env order walk order' next) :
  Follows final order' next
  := by
  cases hturn with
  | pass hmem =>
    exact ⟨h.nodup, h.done_iff, h.inProgress_iff, h.clear,
      (Graph.Completes.skip_iff hmem).1 h.completes⟩
  | @descend node dependency rest below p q hvisit henter =>
    obtain ⟨found, hentered⟩ := Progress.entered_of_enter henter
    have hnew : dependency ∉ order := h.not_mem_order (by simp [hvisit])
    refine ⟨h.nodup, ?_, ?_, ?_, (Graph.Completes.push_iff hnew).1 h.completes⟩
    · intro other
      rw [hentered.mark]
      split
      · next heq => simp [heq, hnew]
      · apply h.done_iff other
    · intro other
      rw [hentered.mark]
      split
      · next heq => simp [path, frame, heq]
      · next hne =>
        have hold := h.inProgress_iff other
        simp only [path, frame, List.map_cons, List.mem_cons, hne, false_or] at hold ⊢
        apply hold
    · intro other
      rw [hentered.mark]
      split
      · simp
      · apply h.clear other
  | @leave node below p q hfinish =>
    have hnot := h.not_mem_below
    refine ⟨h.nodup, ?_, ?_, ?_, Graph.Completes.pop_iff.1 h.completes⟩
    · intro other
      by_cases heq : other = node
      · simp [heq, Progress.visit_finish_self hfinish]
      · rw [Progress.mark_finish_of_ne hfinish heq]
        simpa [heq] using h.done_iff other
    · intro other
      by_cases heq : other = node
      · simp [heq, Progress.visit_finish_self hfinish, path, hnot]
      · rw [Progress.mark_finish_of_ne hfinish heq]
        simpa [path, heq] using h.inProgress_iff other
    · intro other hvisit
      by_cases heq : other = node
      · simp [heq, Progress.visit_finish_self hfinish] at hvisit
      · rw [Progress.mark_finish_of_ne hfinish heq] at hvisit ⊢
        apply h.clear other hvisit

end Follows

/-! ### What every turn keeps -/

/-- A property of the nodes left behind and the walk that every turn of the loop keeps. -/
structure Kept (env : Environment World) (final : List g.Id)
    (Inv : List g.Id → Walk g World → Prop) : Prop where
  paid : ∀ {order walk}, Follows final order walk → Inv order walk → Inv order walk.paid
  turn : ∀ {order walk order' next}, Follows final order walk → Inv order walk →
    Turn env order walk order' next → Inv order' next

/-- A property that every turn keeps may be used to show that every turn keeps another one. -/
theorem Kept.extend {env : Environment World} {final : List g.Id}
    {Inv Inv' : List g.Id → Walk g World → Prop} (h : Kept env final Inv)
    (hpaid : ∀ {order walk}, Follows final order walk → Inv order walk → Inv' order walk →
      Inv' order walk.paid)
    (hturn : ∀ {order walk order' next}, Follows final order walk → Inv order walk →
      Inv' order walk → Turn env order walk order' next → Inv' order' next) :
  Kept env final fun order walk => Inv order walk ∧ Inv' order walk
  where
  paid hfollows hinv := ⟨h.paid hfollows hinv.1, hpaid hfollows hinv.1 hinv.2⟩
  turn hfollows hinv hstep := ⟨h.turn hfollows hinv.1 hstep, hturn hfollows hinv.1 hinv.2 hstep⟩

/-- Two properties that every turn keeps are kept together. -/
theorem Kept.and {env : Environment World} {final : List g.Id}
    {Inv Inv' : List g.Id → Walk g World → Prop} (h : Kept env final Inv)
    (h' : Kept env final Inv') :
  Kept env final fun order walk => Inv order walk ∧ Inv' order walk
  := h.extend (fun hfollows _ => h'.paid hfollows) (fun hfollows _ => h'.turn hfollows)

/-- What every turn keeps holds at the end of a walk: when nothing is left to do, and before
the failure that ends it with an error. -/
theorem Kept.result {env : Environment World} {final order : List g.Id}
    {Inv : List g.Id → Walk g World → Prop} {walk : Walk g World} (hkept : Kept env final Inv)
    (hfollows : Follows final order walk) (hinv : Inv order walk) :
  (∃ q, walk.run env = (.ok (), q) ∧ Follows final final ⟨[], q⟩ ∧ Inv final ⟨[], q⟩) ∨
    ∃ order' last e q, walk.run env = (.error e, q) ∧ Follows final order' last ∧
      Inv order' last ∧ Failure env last e q
  := by
  have hnext : ∀ walk next, (∃ order, Follows final order walk ∧ Inv order walk) →
      walk.step env = .next next → ∃ order, Follows final order next ∧ Inv order next := by
    rintro walk next ⟨order, hfollows, hinv⟩ hstep
    obtain ⟨order', hturn⟩ := hfollows.turn_of_step hstep
    exact ⟨order', hfollows.paid.turn hturn,
      hkept.turn hfollows.paid (hkept.paid hfollows hinv) hturn⟩
  rcases exists_last env _ hnext ⟨order, hfollows, hinv⟩ with
    ⟨q, ⟨order', hfollows, hinv⟩, hrun⟩ | ⟨last, e, q, ⟨order', hfollows, hinv⟩, hfailed, hrun⟩
  · obtain rfl : order' = final := hfollows.completes
    exact .inl ⟨q, hrun, hfollows, hinv⟩
  · exact .inr ⟨order', last.paid, e, q, hrun, hfollows.paid, hkept.paid hfollows hinv,
      hfollows.failure_of_step hfailed⟩

end IncrementalBuild.Walk
