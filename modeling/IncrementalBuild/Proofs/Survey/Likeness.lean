import IncrementalBuild.Proofs.Graph.Likeness
import IncrementalBuild.Proofs.Survey.Invariant

/-!
# Surveys of graphs that are alike

Two environments are `Environment.Alike` along a relation between their worlds if in related
worlds files have the same times, and commands end in the same way and lead to worlds that are
related again.  Two surveys are alike if they have got as far with related nodes and have come
to where they are along related nodes.  Then their next turns are alike, and so both meet the
same error.
-/

namespace IncrementalBuild

variable {World World' : Type} {g g' : Graph} {R : g.Id → g'.Id → Prop} {W : World → World' → Prop}
  {env : Environment World} {env' : Environment World'} {world : World} {world' : World'}

/-- Two operations give the same answer and lead to related states. -/
inductive EndAlike {α State State' : Type} (S : State → State' → Prop) :
    α × State → α × State' → Prop
  | intro {answer : α} {state : State} {state' : State'} :
    S state state' → EndAlike S (answer, state) (answer, state')

theorem EndAlike.exists_eq {α State State' : Type} {S : State → State' → Prop}
    {ended : α × State} {ended' : α × State'} (h : EndAlike S ended ended') :
  ∃ answer state state', ended = (answer, state) ∧ ended' = (answer, state') ∧ S state state'
  := by
  obtain ⟨hstates⟩ := h
  exact ⟨_, _, _, rfl, rfl, hstates⟩

/-- In related worlds files have the same times, commands end in the same way, and the worlds
they lead to are related. -/
structure Environment.Alike (env : Environment World) (env' : Environment World')
    (W : World → World' → Prop) : Prop where
  modified : ∀ {world world'}, W world world' → env.modified world = env'.modified world'
  execute : ∀ {world world'} (command : String), W world world' →
    EndAlike W (env.execute world command) (env'.execute world' command)

/-- An environment is like itself. -/
theorem Environment.Alike.refl (env : Environment World) :
  Alike env env Eq
  where
  modified := by rintro world _ rfl; rfl
  execute := by rintro world _ command rfl; exact .intro rfl

namespace Survey

/-- Branches of related nodes, with related dependencies yet to be walked over. -/
structure BranchAlike (R : g.Id → g'.Id → Prop) (branch : Branch g) (branch' : Branch g') :
    Prop where
  node : R branch.node branch'.node
  pending : List.Forall₂ R branch.pending branch'.pending

/-- Two surveys have got as far with related nodes, and have come to where they are along
related nodes. -/
structure Alike (R : g.Id → g'.Id → Prop) (survey : Survey g) (survey' : Survey g') : Prop where
  visit : ∀ {a b}, R a b → survey.visit a = survey'.visit b
  stack : List.Forall₂ (BranchAlike R) survey.stack survey'.stack

/-- Two turns end in the same way, and the surveys that go on are alike. -/
inductive StepAlike (R : g.Id → g'.Id → Prop) : Step g → Step g' → Prop
  | finished : StepAlike R .finished .finished
  | failed {e : Stop BuildError} : StepAlike R (.failed e) (.failed e)
  | next {survey : Survey g} {survey' : Survey g'} :
    Alike R survey survey' → StepAlike R (.next survey) (.next survey')

theorem forall₂_node {stack : List (Branch g)} {stack' : List (Branch g')}
    (h : List.Forall₂ (BranchAlike R) stack stack') :
  List.Forall₂ R (stack.map (·.node)) (stack'.map (·.node))
  := by
  rw [List.forall₂_map_left_iff, List.forall₂_map_right_iff]
  apply h.imp fun _ _ hbranch => hbranch.node

/-- Surveys stay alike when how far they have got is changed for related nodes, and alike. -/
theorem Alike.set {visits : Vector Visit g.size} {visits' : Vector Visit g'.size}
    {stack below : List (Branch g)} {stack' below' : List (Branch g')} {a : g.Id} {b : g'.Id}
    (hgraph : Graph.Alike g g' R) (h : Alike R ⟨visits, stack⟩ ⟨visits', stack'⟩) (hab : R a b)
    (v : Visit) (hbelow : List.Forall₂ (BranchAlike R) below below') :
  Alike R ⟨visits.set a.val v (g.id_lt_size a), below⟩
    ⟨visits'.set b.val v (g'.id_lt_size b), below'⟩
  where
  visit := by
    intro c d hcd
    have hvisit : Survey.visit ⟨visits, below⟩ c = Survey.visit ⟨visits', below'⟩ d := h.visit hcd
    simp only [visit_set, hgraph.eq_iff hcd hab, hvisit]
  stack := hbelow

theorem Alike.enter {survey : Survey g} {survey' : Survey g'} {a : g.Id} {b : g'.Id}
    (hgraph : Graph.Alike g g' R) (h : Alike R survey survey') (hab : R a b) :
  Alike R (survey.enter a) (survey'.enter b)
  := h.set hgraph hab .inProgress (.cons ⟨hab, hgraph.dependencies hab⟩ h.stack)

/-- Surveys of related roots begin alike. -/
theorem Alike.start {root : g.Id} {root' : g'.Id} (hgraph : Graph.Alike g g' R)
    (hroot : R root root') :
  Alike R (start root) (start root')
  := by
  apply Alike.enter hgraph _ hroot
  exact ⟨fun _ => by simp [Survey.visit], .nil⟩

theorem missing?_eq {a c : g.Id} {b d : g'.Id} (hgraph : Graph.Alike g g' R)
    (henv : Environment.Alike env env' W) (hworld : W world world') (hab : R a b) (hcd : R c d) :
  missing? env world a c = missing? env' world' b d
  := by
  unfold missing?
  rw [hgraph.declared hcd, henv.modified hworld, hgraph.name hab, hgraph.name hcd]

/-- The next turns of surveys that are alike are alike. -/
theorem Alike.step {survey : Survey g} {survey' : Survey g'} (hgraph : Graph.Alike g g' R)
    (henv : Environment.Alike env env' W) (hworld : W world world') (h : Alike R survey survey') :
  StepAlike R (survey.step env world) (survey'.step env' world')
  := by
  obtain ⟨visits, stack⟩ := survey
  obtain ⟨visits', stack'⟩ := survey'
  obtain ⟨hvisit, hstack⟩ := h
  cases hstack with
  | nil => exact .finished
  | @cons branch branch' below below' hbranch hbelow =>
    obtain ⟨node, pending⟩ := branch
    obtain ⟨node', pending'⟩ := branch'
    obtain ⟨hnode, hpending⟩ := hbranch
    cases hpending with
    | nil =>
      apply StepAlike.next
      apply Alike.set hgraph ⟨hvisit, .cons ⟨hnode, .nil⟩ hbelow⟩ hnode .done hbelow
    | @cons dependency dependency' rest rest' hdependency hrest =>
      have hpath :
          List.Forall₂ (BranchAlike R) (⟨node, rest⟩ :: below) (⟨node', rest'⟩ :: below') :=
        .cons ⟨hnode, hrest⟩ hbelow
      have hlt := g.id_lt_size dependency
      have hlt' := g'.id_lt_size dependency'
      have hvisits : visits[dependency.val] = visits'[dependency'.val] := hvisit hdependency
      have hmissing := missing?_eq hgraph henv hworld hnode hdependency
      simp only [Survey.step, hvisits, hmissing]
      cases visits'[dependency'.val] with
      | done => exact .next ⟨hvisit, hpath⟩
      | inProgress =>
        simp only [hgraph.cycle_eq (List.rel_reverse (forall₂_node hpath)) hdependency]
        exact .failed
      | unvisited =>
        cases missing? env' world' node' dependency' with
        | some e => exact .failed
        | none => exact .next (Alike.enter hgraph ⟨hvisit, hpath⟩ hdependency)

/-- Surveys that are alike meet the same error. -/
theorem Alike.run {survey : Survey g} {survey' : Survey g'} (hgraph : Graph.Alike g g' R)
    (henv : Environment.Alike env env' W) (hworld : W world world') (h : Alike R survey survey') :
  survey.run env world = survey'.run env' world'
  := by
  induction survey using Survey.run.induct env world generalizing survey' with
  | case1 survey hstep =>
    have hsteps := h.step hgraph henv hworld
    rw [hstep] at hsteps
    generalize hstep' : survey'.step env' world' = step' at hsteps
    cases hsteps with
    | finished => rw [run_of_finished hstep, run_of_finished hstep']
  | case2 survey e hstep =>
    have hsteps := h.step hgraph henv hworld
    rw [hstep] at hsteps
    generalize hstep' : survey'.step env' world' = step' at hsteps
    cases hsteps with
    | failed => rw [run_of_failed hstep, run_of_failed hstep']
  | case3 survey next hstep ih =>
    have hsteps := h.step hgraph henv hworld
    rw [hstep] at hsteps
    generalize hstep' : survey'.step env' world' = step' at hsteps
    cases hsteps with
    | next hnext => rw [run_of_next hstep, run_of_next hstep', ih hnext]

end Survey

/-- Surveys of related roots meet the same error. -/
theorem survey_eq_of_alike {root : g.Id} {root' : g'.Id} (hgraph : Graph.Alike g g' R)
    (henv : Environment.Alike env env' W) (hworld : W world world') (hroot : R root root') :
  survey env world g root = survey env' world' g' root'
  := Survey.Alike.run hgraph henv hworld (.start hgraph hroot)

end IncrementalBuild
