import IncrementalBuild.Build.Progress
import IncrementalBuild.Build.Survey

/-!
# The walk of a build

A build walks over what can be reached from the root, depth first and dependencies in
order, and finishes a node after its dependencies.  The walk is a loop over a stack of
frames, the current one on top; a frame is a node, the dependencies of it that are still to
be dealt with, and the dependency dealt with last, with which the node is yet to be
compared.  So the depth of a graph is bounded by nothing but memory.  `Walk.step` is one
turn of the loop.
-/

namespace IncrementalBuild

/-- A node on the path of a walk, its dependencies yet to be dealt with, and the one it is
yet to be compared with. -/
structure Frame (g : Graph) where
  node : g.Id
  pending : List g.Id
  resolved : Option g.Id

/-- A walk under way: its path, the end of it first, and what has been done so far. -/
structure Walk (g : Graph) (World : Type) where
  stack : List (Frame g)
  progress : Progress g World

namespace Walk

variable {g : Graph} {World : Type}

/-- The outcome of a turn of the loop: the walk is over, or an error has ended it, or it
goes on. -/
inductive Step (g : Graph) (World : Type)
  | finished (progress : Progress g World)
  | failed (e : Stop BuildError) (progress : Progress g World)
  | next (walk : Walk g World)

/-- The frame of a node that has just been entered. -/
def frame (g : Graph) (node : g.Id) : Frame g :=
  ⟨node, g.dependencies node, none⟩

/-- The comparison that a frame still owes. -/
def Frame.compare (frame : Frame g) (p : Progress g World) : Progress g World :=
  match frame.resolved with
  | none => p
  | some dependency => p.compare frame.node dependency

/-- One turn of the loop. -/
def step (env : Environment World) (walk : Walk g World) : Step g World :=
  match walk with
  | ⟨[], p⟩ => .finished p
  | ⟨⟨node, pending, resolved⟩ :: below, p⟩ =>
    let p := Frame.compare ⟨node, pending, resolved⟩ p
    match pending with
    | [] =>
      match p.finish env node with
      | (.ok (), p) => .next ⟨below, p⟩
      | (.error e, p) => .failed e p
    | dependency :: rest =>
      let path := ⟨node, rest, some dependency⟩ :: below
      match (p.marks.mark dependency).visit with
      | .done => .next ⟨path, p⟩
      | .inProgress =>
        .failed (.failure (.cyclicDependency (g.cycle (path.map (·.node)).reverse dependency))) p
      | .unvisited =>
        match p.enter env (some node) dependency with
        | (.ok (), p) => .next ⟨frame g dependency :: path, p⟩
        | (.error e, p) => .failed e p

/-- The number of nodes the walk has not come to, and the number of turns that the frames
on its path will still take. -/
def remaining (walk : Walk g World) : Nat × Nat :=
  (walk.progress.marks.unvisited, (walk.stack.map (·.pending.length + 1)).foldr (· + ·) 0)

theorem Frame.unvisited_compare_le (frame : Frame g) (p : Progress g World) :
  (Frame.compare frame p).marks.unvisited ≤ p.marks.unvisited
  := by
  unfold Frame.compare
  split
  · exact Nat.le_refl _
  · exact Progress.unvisited_compare_le _ _ _

private theorem lex_of_le_of_lt {a b c d : Nat} (hfst : a ≤ c) (hsnd : b < d) :
  Prod.Lex (· < ·) (· < ·) (a, b) (c, d)
  := by
  rw [Prod.lex_def]
  simp only
  omega

/-- Every turn of the loop brings the walk nearer to its end. -/
theorem remaining_lt_of_step {env : Environment World} {walk next : Walk g World}
    (h : walk.step env = .next next) :
  Prod.Lex (· < ·) (· < ·) next.remaining walk.remaining
  := by
  match walk with
  | ⟨[], p⟩ => simp [step] at h
  | ⟨⟨node, [], resolved⟩ :: below, p⟩ =>
    have hcompare := Frame.unvisited_compare_le ⟨node, [], resolved⟩ p
    simp only [step] at h
    split at h
    · next after hfinish =>
      cases h
      have hfinish := Progress.unvisited_finish_le hfinish
      apply lex_of_le_of_lt
      · exact Nat.le_trans hfinish hcompare
      · simp
    · simp at h
  | ⟨⟨node, dependency :: rest, resolved⟩ :: below, p⟩ =>
    have hcompare := Frame.unvisited_compare_le ⟨node, dependency :: rest, resolved⟩ p
    simp only [step] at h
    split at h
    · cases h
      apply lex_of_le_of_lt hcompare
      simp
    · simp at h
    · next hvisit =>
      split at h
      · next after henter =>
        cases h
        have henter := Progress.unvisited_enter_lt henter hvisit
        exact Prod.Lex.left _ _ (Nat.lt_of_lt_of_le henter hcompare)
      · simp at h

/-- What has been done when a walk under way is over, and whether an error ended it. -/
def run (env : Environment World) (walk : Walk g World) :
    Except (Stop BuildError) Unit × Progress g World :=
  match _h : walk.step env with
  | .finished p => (.ok (), p)
  | .failed e p => (.error e, p)
  | .next walk => walk.run env
termination_by walk.remaining
decreasing_by exact remaining_lt_of_step _h

end Walk

/-- Deals with a node and with everything that can be reached from it. -/
def walk {World : Type} (env : Environment World) (g : Graph) (root : g.Id)
    (p : Progress g World) : Except (Stop BuildError) Unit × Progress g World :=
  match p.enter env none root with
  | (.error e, p) => (.error e, p)
  | (.ok (), p) => Walk.run env ⟨[Walk.frame g root], p⟩

end IncrementalBuild
