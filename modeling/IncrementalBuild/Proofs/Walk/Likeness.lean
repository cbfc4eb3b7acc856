import IncrementalBuild.Proofs.Survey.Likeness
import IncrementalBuild.Proofs.Walk.Turn

/-!
# Builds in graphs that are alike

What has been done in two graphs is alike if related nodes have the same marks, the worlds are
related, and nodes of the same names have been brought up to date with the same commands and
the same reports.  Every operation of a walk on related nodes keeps this, and ends in the same
way.  So walks that are alike have turns that are alike, and builds of related nodes, begun
with the same marks in related worlds, have the same result.
-/

namespace IncrementalBuild

variable {World World' : Type} {g g' : Graph} {R : g.Id → g'.Id → Prop} {W : World → World' → Prop}
  {env : Environment World} {env' : Environment World'}

/-! ### What is done on one node -/

namespace Progress

variable {p : Progress g World} {p' : Progress g' World'} {a c : g.Id} {b d : g'.Id}

/-- Related nodes have the same marks, the worlds are related, and nodes of the same names have
been brought up to date, with the same commands and the same reports. -/
structure Alike (R : g.Id → g'.Id → Prop) (W : World → World' → Prop) (p : Progress g World)
    (p' : Progress g' World') : Prop where
  mark : ∀ {a b}, R a b → p.marks.mark a = p'.marks.mark b
  world : W p.world p'.world
  rebuilt : p.rebuilt.toList.map g.name = p'.rebuilt.toList.map g'.name
  commandsRun : p.commandsRun = p'.commandsRun
  commands : p.commands = p'.commands
  events : p.trace.toList.filterMap Action.event? = p'.trace.toList.filterMap Action.event?

namespace Alike

theorem record {action : Action g} {action' : Action g'} (h : Alike R W p p')
    (hcommand : action.command? = action'.command?) (hevent : action.event? = action'.event?) :
  Alike R W (p.record action) (p'.record action')
  where
  mark := h.mark
  world := h.world
  rebuilt := h.rebuilt
  commandsRun := h.commandsRun
  commands := by
    have hcommands := h.commands
    simp only [Progress.commands] at hcommands
    simp [Progress.commands, Progress.record, List.filterMap_cons, hcommands, hcommand]
  events := by simp [Progress.record, List.filterMap_cons, h.events, hevent]

theorem change (hgraph : Graph.Alike g g' R) (h : Alike R W p p') (hab : R a b)
    (f : Mark → Mark) :
  Alike R W (p.mark a f) (p'.mark b f)
  where
  mark := by
    intro c d hcd
    simp only [marks_mark, Marks.mark_change, hgraph.eq_iff hcd hab, h.mark hab, h.mark hcd]
  world := h.world
  rebuilt := h.rebuilt
  commandsRun := h.commandsRun
  commands := h.commands
  events := h.events

theorem look (hgraph : Graph.Alike g g' R) (henv : Environment.Alike env env' W)
    (h : Alike R W p p') (hab : R a b) :
  EndAlike (Alike R W) (p.look env a) (p'.look env' b)
  := by
  rw [Progress.look, Progress.look, henv.modified h.world, hgraph.name hab]
  exact .intro (h.record rfl rfl)

theorem enter {parent? : Option g.Id} {parent?' : Option g'.Id} (hgraph : Graph.Alike g g' R)
    (henv : Environment.Alike env env' W) (h : Alike R W p p')
    (hparent : Option.Rel R parent? parent?') (hab : R a b) :
  EndAlike (Alike R W) (p.enter env parent? a) (p'.enter env' parent?' b)
  := by
  obtain ⟨found, q, q', hlook, hlook', hlooked⟩ := (h.look hgraph henv hab).exists_eq
  simp only [Progress.enter, hlook, hlook']
  cases found with
  | error e => exact .intro hlooked
  | ok found =>
    have hmarked := hlooked.change hgraph hab ({ · with visit := .inProgress, modified := found })
    cases found with
    | some time => exact .intro hmarked
    | none =>
      have hnames : parent?.map g.name = parent?'.map g'.name := by
        cases hparent with
        | none => rfl
        | some hcd => exact congrArg some (hgraph.name hcd)
      simp only [Option.isSome_none, Bool.false_eq_true, if_false, hgraph.declared hab,
        hgraph.name hab, hnames]
      split
      · refine .intro (Alike.change hgraph (hmarked.record rfl ?_) hab _)
        simp only [Action.event?, hgraph.name hab]
      · exact .intro hmarked

theorem compare (hgraph : Graph.Alike g g' R) (h : Alike R W p p') (hab : R a b) (hcd : R c d) :
  Alike R W (p.compare a c) (p'.compare b d)
  := by
  simp only [Progress.compare, h.mark hab, h.mark hcd]
  split
  · exact h
  · split
    · apply Alike.change hgraph (h.record rfl _) hab
      simp only [Action.event?, hgraph.name hab, hgraph.name hcd]
    · exact h

theorem execute (henv : Environment.Alike env env' W) (commands : List String)
    (h : Alike R W p p') :
  EndAlike (Alike R W) (p.execute env a commands) (p'.execute env' b commands)
  := by
  induction commands generalizing p p' with
  | nil => exact .intro h
  | cons command rest ih =>
    have hissued : Alike R W (p.record (.issued a command)) (p'.record (.issued b command)) :=
      h.record rfl rfl
    obtain ⟨result, world, world', hended, hended', hworld⟩ :=
      (henv.execute command h.world).exists_eq
    simp only [Progress.execute, Progress.record, hended, hended']
    cases result with
    | error e => exact .intro { hissued with world := hworld }
    | ok _ =>
      apply ih
      exact { hissued with world := hworld, commandsRun := congrArg (· + 1) h.commandsRun }

theorem settle (hgraph : Graph.Alike g g' R) (henv : Environment.Alike env env' W)
    (h : Alike R W p p') (hab : R a b) :
  EndAlike (Alike R W) (p.settle env a) (p'.settle env' b)
  := by
  have hpushed : Alike R W { p with rebuilt := p.rebuilt.push a }
      { p' with rebuilt := p'.rebuilt.push b } :=
    { h with rebuilt := by simp [h.rebuilt, hgraph.name hab] }
  obtain ⟨found, q, q', hlook, hlook', hlooked⟩ := (hpushed.look hgraph henv hab).exists_eq
  simp only [Progress.settle, hlook, hlook']
  cases found with
  | error e => exact .intro hlooked
  | ok found => exact .intro (Alike.change hgraph (hlooked.change hgraph hab _) hab _)

theorem finish (hgraph : Graph.Alike g g' R) (henv : Environment.Alike env env' W)
    (h : Alike R W p p') (hab : R a b) :
  EndAlike (Alike R W) (p.finish env a) (p'.finish env' b)
  := by
  simp only [Progress.finish, h.mark hab, hgraph.commands hab]
  split
  · obtain ⟨result, q, q', hexecute, hexecute', hexecuted⟩ :=
      (h.execute henv (a := a) (b := b) (g'.node b).commands.toList).exists_eq
    simp only [hexecute, hexecute']
    cases result with
    | error e => exact .intro hexecuted
    | ok _ => exact hexecuted.settle hgraph henv hab
  · exact .intro (h.change hgraph hab _)

end Alike

end Progress

/-! ### Walks -/

namespace Walk

/-- Frames of related nodes, with related dependencies yet to be dealt with, which are yet to be
compared with related dependencies. -/
structure FrameAlike (R : g.Id → g'.Id → Prop) (frame : Frame g) (frame' : Frame g') : Prop where
  node : R frame.node frame'.node
  pending : List.Forall₂ R frame.pending frame'.pending
  resolved : Option.Rel R frame.resolved frame'.resolved

/-- Two walks have come to where they are along related nodes, and what they have done is
alike. -/
structure Alike (R : g.Id → g'.Id → Prop) (W : World → World' → Prop) (walk : Walk g World)
    (walk' : Walk g' World') : Prop where
  stack : List.Forall₂ (FrameAlike R) walk.stack walk'.stack
  progress : Progress.Alike R W walk.progress walk'.progress

/-- Two turns end in the same way, and what is done or goes on then is alike. -/
inductive StepAlike (R : g.Id → g'.Id → Prop) (W : World → World' → Prop) :
    Step g World → Step g' World' → Prop
  | finished {p : Progress g World} {p' : Progress g' World'} :
    Progress.Alike R W p p' → StepAlike R W (.finished p) (.finished p')
  | failed {e : Stop BuildError} {p : Progress g World} {p' : Progress g' World'} :
    Progress.Alike R W p p' → StepAlike R W (.failed e p) (.failed e p')
  | next {walk : Walk g World} {walk' : Walk g' World'} :
    Alike R W walk walk' → StepAlike R W (.next walk) (.next walk')

theorem forall₂_node {stack : List (Frame g)} {stack' : List (Frame g')}
    (h : List.Forall₂ (FrameAlike R) stack stack') :
  List.Forall₂ R (stack.map (·.node)) (stack'.map (·.node))
  := by
  rw [List.forall₂_map_left_iff, List.forall₂_map_right_iff]
  apply h.imp fun _ _ hframe => hframe.node

theorem FrameAlike.compare {frame : Frame g} {frame' : Frame g'} {p : Progress g World}
    {p' : Progress g' World'} (hgraph : Graph.Alike g g' R) (h : FrameAlike R frame frame')
    (hp : Progress.Alike R W p p') :
  Progress.Alike R W (Frame.compare frame p) (Frame.compare frame' p')
  := by
  obtain ⟨node, pending, resolved⟩ := frame
  obtain ⟨node', pending', resolved'⟩ := frame'
  obtain ⟨hnode, -, hresolved⟩ := h
  cases hresolved with
  | none => exact hp
  | some hdependency => exact hp.compare hgraph hnode hdependency

theorem FrameAlike.frame {a : g.Id} {b : g'.Id} (hgraph : Graph.Alike g g' R) (hab : R a b) :
  FrameAlike R (frame g a) (frame g' b)
  := ⟨hab, hgraph.dependencies hab, .none⟩

/-- The next turns of walks that are alike are alike. -/
theorem Alike.step {walk : Walk g World} {walk' : Walk g' World'} (hgraph : Graph.Alike g g' R)
    (henv : Environment.Alike env env' W) (h : Alike R W walk walk') :
  StepAlike R W (walk.step env) (walk'.step env')
  := by
  obtain ⟨stack, p⟩ := walk
  obtain ⟨stack', p'⟩ := walk'
  obtain ⟨hstack, hp⟩ := h
  cases hstack with
  | nil => exact .finished hp
  | @cons frame frame' below below' hframe hbelow =>
    have hcompare := hframe.compare hgraph hp
    obtain ⟨node, pending, resolved⟩ := frame
    obtain ⟨node', pending', resolved'⟩ := frame'
    obtain ⟨hnode, hpending, -⟩ := hframe
    simp only at hnode hpending
    cases hpending with
    | nil =>
      obtain ⟨result, q, q', hfinish, hfinish', hfinished⟩ :=
        (hcompare.finish hgraph henv hnode).exists_eq
      simp only [Walk.step, hfinish, hfinish']
      cases result with
      | error e => exact .failed hfinished
      | ok _ => exact .next ⟨hbelow, hfinished⟩
    | @cons dependency dependency' rest rest' hdependency hrest =>
      have hpath : List.Forall₂ (FrameAlike R) (⟨node, rest, some dependency⟩ :: below)
          (⟨node', rest', some dependency'⟩ :: below') :=
        .cons ⟨hnode, hrest, .some hdependency⟩ hbelow
      simp only [Walk.step, hcompare.mark hdependency]
      cases (Marks.mark _ dependency').visit with
      | done => exact .next ⟨hpath, hcompare⟩
      | inProgress =>
        simp only [hgraph.cycle_eq (List.rel_reverse (forall₂_node hpath)) hdependency]
        exact .failed hcompare
      | unvisited =>
        obtain ⟨result, q, q', henter, henter', hentered⟩ :=
          (hcompare.enter hgraph henv (.some hnode) hdependency).exists_eq
        simp only [henter, henter']
        cases result with
        | error e => exact .failed hentered
        | ok _ => exact .next ⟨.cons (.frame hgraph hdependency) hpath, hentered⟩

/-- Walks that are alike end in the same way, and what they have done then is alike. -/
theorem Alike.run {walk : Walk g World} {walk' : Walk g' World'} (hgraph : Graph.Alike g g' R)
    (henv : Environment.Alike env env' W) (h : Alike R W walk walk') :
  EndAlike (Progress.Alike R W) (walk.run env) (walk'.run env')
  := by
  induction walk using Walk.run.induct env generalizing walk' with
  | case1 walk p hstep =>
    have hsteps := h.step hgraph henv
    rw [hstep] at hsteps
    generalize hstep' : walk'.step env' = step' at hsteps
    cases hsteps with
    | finished hp =>
      rw [run_of_finished hstep, run_of_finished hstep']
      exact .intro hp
  | case2 walk e p hstep =>
    have hsteps := h.step hgraph henv
    rw [hstep] at hsteps
    generalize hstep' : walk'.step env' = step' at hsteps
    cases hsteps with
    | failed hp =>
      rw [run_of_failed hstep, run_of_failed hstep']
      exact .intro hp
  | case3 walk next hstep ih =>
    have hsteps := h.step hgraph henv
    rw [hstep] at hsteps
    generalize hstep' : walk'.step env' = step' at hsteps
    cases hsteps with
    | next hnext =>
      rw [run_of_next hstep, run_of_next hstep']
      apply ih hnext

end Walk

/-- Walks from related nodes end in the same way, and what they have done then is alike. -/
theorem Progress.Alike.walk {p : Progress g World} {p' : Progress g' World'} {root : g.Id}
    {root' : g'.Id} (hgraph : Graph.Alike g g' R) (henv : Environment.Alike env env' W)
    (h : Alike R W p p') (hroot : R root root') :
  EndAlike (Alike R W) (walk env g root p) (walk env' g' root' p')
  := by
  obtain ⟨result, q, q', henter, henter', hentered⟩ :=
    (h.enter hgraph henv .none hroot).exists_eq
  simp only [IncrementalBuild.walk, henter, henter']
  cases result with
  | error e => exact .intro hentered
  | ok _ => exact Walk.Alike.run hgraph henv ⟨.cons (.frame hgraph hroot) .nil, hentered⟩

/-! ### Builds -/

/-- Two builds have the same result and make the same reports, and what they have done is
alike. -/
structure Run.Alike (R : g.Id → g'.Id → Prop) (W : World → World' → Prop) (run : Run g World)
    (run' : Run g' World') : Prop where
  result : run.result = run'.result
  progress : Progress.Alike R W run.progress run'.progress
  events : run.events = run'.events

/-- Builds of related nodes are alike, if they begin with the same marks and in related
worlds. -/
theorem build_alike {marks : Marks g} {marks' : Marks g'} {world : World} {world' : World'}
    {root : g.Id} {root' : g'.Id} (hgraph : Graph.Alike g g' R)
    (henv : Environment.Alike env env' W)
    (hmarks : ∀ {a b}, R a b → marks.mark a = marks'.mark b) (hworld : W world world')
    (hroot : R root root') :
  Run.Alike R W (build env g marks world root) (build env' g' marks' world' root')
  := by
  have hstart : Progress.Alike R W (.start marks world) (.start marks' world') :=
    ⟨hmarks, hworld, rfl, rfl, rfl, rfl⟩
  simp only [build, survey_eq_of_alike hgraph henv hworld hroot, hmarks hroot, hgraph.name hroot]
  cases survey env' world' g' root' with
  | some e => exact ⟨rfl, hstart, rfl⟩
  | none =>
    simp only
    split
    · exact ⟨rfl, hstart, rfl⟩
    · obtain ⟨result, q, q', hwalk, hwalk', hwalked⟩ :=
        (hstart.walk hgraph henv hroot).exists_eq
      simp only [hwalk, hwalk']
      cases result with
      | error e => exact ⟨rfl, hwalked, hwalked.events⟩
      | ok _ =>
        simp only [hwalked.commandsRun, hwalked.rebuilt, hwalked.events]
        exact ⟨rfl, hwalked, rfl⟩

end IncrementalBuild
