import IncrementalBuild.Build.Environment
import IncrementalBuild.Build.Mark

/-!
# The work of a build on one node

`Progress` is what a build has done so far: the marks it has left, the world its commands
have led to, the nodes it has brought up to date, the number of commands that succeeded,
and a trace of its actions from the first to the last.

A build enters a node and looks at its file; it compares the node with each dependency
that has been dealt with; and it finishes the node, running its commands if it is stale.
A node is stale if it was absent when it was entered, or if a dependency is absent or
newer.
-/

namespace IncrementalBuild

/-- What a build does: it looks at the file of a node, finds a node stale because it is
absent or because of a dependency, and gives a command of a node to be executed. -/
inductive Action (g : Graph)
  | looked (node : g.Id) (found : Except (Stop StatError) (Option Stamp))
  | foundAbsent (node : g.Id)
  | foundOutdated (node dependency : g.Id)
  | issued (node : g.Id) (command : String)

namespace Action

variable {g : Graph}

/-- The command that is given to be executed. -/
def command? : Action g → Option String
  | issued _ command => some command
  | looked .. | foundAbsent .. | foundOutdated .. => none

/-- The report that is made of an action. -/
def event? : Action g → Option Event
  | foundAbsent node => some (.absent (g.name node))
  | foundOutdated node dependency => some (.outdated (g.name node) (g.name dependency))
  | looked .. | issued .. => none

end Action

/-- What a build has done so far. -/
structure Progress (g : Graph) (World : Type) where
  marks : Marks g
  world : World
  rebuilt : Array g.Id
  commandsRun : Nat
  trace : Array (Action g)

namespace Progress

variable {g : Graph} {World : Type}

/-- Nothing has been done. -/
def start (marks : Marks g) (world : World) : Progress g World :=
  ⟨marks, world, #[], 0, #[]⟩

/-- The progress with an action added to the trace. -/
def record (p : Progress g World) (action : Action g) : Progress g World :=
  { p with trace := p.trace.push action }

/-- The progress with the mark of a node changed. -/
def mark (p : Progress g World) (id : g.Id) (f : Mark → Mark) : Progress g World :=
  { p with marks := p.marks.change id f }

/-- Looks at the file of a node. -/
def look (env : Environment World) (id : g.Id) (p : Progress g World) :
    Except (Stop StatError) (Option Stamp) × Progress g World :=
  let found := env.modified p.world (g.name id)
  (found, p.record (.looked id found))

/-- Comes to a node, of which `parent?` is the node that needs it: looks at its file, and
finds it stale if it is declared but absent. -/
def enter (env : Environment World) (parent? : Option g.Id) (id : g.Id) (p : Progress g World) :
    Except (Stop BuildError) Unit × Progress g World :=
  match p.look env id with
  | (.error e, p) => (.error (e.map .stat), p)
  | (.ok found, p) =>
    let p := p.mark id ({ · with visit := .inProgress, modified := found })
    if found.isSome then
      (.ok (), p)
    else if (g.node id).declared then
      let p := p.record (.foundAbsent id)
      (.ok (), p.mark id ({ · with mustBuild := true }))
    else
      (.error (.failure (.missingPrerequisite (g.name id) ((parent?.map g.name).getD ""))), p)

/-- Whether a file modified at `own` is out of date beside one modified at `theirs`, where
no time means that there is no file. -/
def isOutdated (own theirs : Option Stamp) : Bool :=
  match theirs, own with
  | none, _ => true
  | some theirs, some own => own < theirs
  | some _, none => true

/-- Finds a node stale if it is out of date beside a dependency. -/
def compare (id dependency : g.Id) (p : Progress g World) : Progress g World :=
  if (p.marks.mark id).mustBuild then
    p
  else if isOutdated (p.marks.mark id).modified (p.marks.mark dependency).modified then
    (p.record (.foundOutdated id dependency)).mark id ({ · with mustBuild := true })
  else
    p

/-- Gives commands of a node to be executed, up to the first that does not succeed. -/
def execute (env : Environment World) (id : g.Id) :
    List String → Progress g World → Except (Stop BuildError) Unit × Progress g World
  | [], p => (.ok (), p)
  | command :: rest, p =>
    let p := p.record (.issued id command)
    match env.execute p.world command with
    | (.error e, world) => (.error (.failure (.command e)), { p with world := world })
    | (.ok (), world) =>
      execute env id rest { p with world := world, commandsRun := p.commandsRun + 1 }

/-- The progress that leaves a node for good. -/
def leave (id : g.Id) (p : Progress g World) : Progress g World :=
  p.mark id ({ · with visit := .done })

/-- Looks at the file of a node whose commands have been run, and leaves the node; a file
that is no longer there does not change what has been seen of it. -/
def settle (env : Environment World) (id : g.Id) (p : Progress g World) :
    Except (Stop BuildError) Unit × Progress g World :=
  let p := { p with rebuilt := p.rebuilt.push id }
  match p.look env id with
  | (.error e, p) => (.error (e.map .stat), p)
  | (.ok found, p) =>
    (.ok (), (p.mark id fun mark => { mark with modified := found.or mark.modified }).leave id)

/-- Deals with a node all of whose dependencies have been dealt with. -/
def finish (env : Environment World) (id : g.Id) (p : Progress g World) :
    Except (Stop BuildError) Unit × Progress g World :=
  if (p.marks.mark id).mustBuild then
    match execute env id (g.node id).commands.toList p with
    | (.error e, p) => (.error e, p)
    | (.ok (), p) => p.settle env id
  else
    (.ok (), p.leave id)

/-! ### The marks that an operation leaves -/

@[simp]
theorem marks_record (p : Progress g World) (action : Action g) :
  (p.record action).marks = p.marks
  := rfl

theorem marks_look {env : Environment World} {id : g.Id} {p q : Progress g World}
    {found : Except (Stop StatError) (Option Stamp)} (h : p.look env id = (found, q)) :
  q.marks = p.marks
  := by
  cases h
  rfl

@[simp]
theorem marks_mark (p : Progress g World) (id : g.Id) (f : Mark → Mark) :
  (p.mark id f).marks = p.marks.change id f
  := rfl

/-- Once an unvisited node has been entered, fewer nodes are unvisited. -/
theorem unvisited_enter_lt {env : Environment World} {parent? : Option g.Id} {id : g.Id}
    {p q : Progress g World} (h : enter env parent? id p = (.ok (), q))
    (hid : (p.marks.mark id).visit = .unvisited) :
  q.marks.unvisited < p.marks.unvisited
  := by
  unfold enter at h
  split at h
  · simp at h
  · next found q hlook =>
    have hlt := p.marks.unvisited_change_lt id
      (f := ({ · with visit := .inProgress, modified := found })) hid (by simp)
    rw [← marks_look hlook] at hlt
    rw [← marks_look hlook]
    simp only at h
    split at h
    · cases h
      exact hlt
    · split at h
      · cases h
        exact Nat.lt_of_le_of_lt (Marks.unvisited_change_le _ _ (by simp)) hlt
      · simp at h

theorem unvisited_compare_le (id dependency : g.Id) (p : Progress g World) :
  (p.compare id dependency).marks.unvisited ≤ p.marks.unvisited
  := by
  unfold compare
  split
  · exact Nat.le_refl _
  · split
    · exact Marks.unvisited_change_le _ _ (by simp)
    · exact Nat.le_refl _

/-- A comparison does not change how far the build has got with a node. -/
theorem visit_compare (id dependency other : g.Id) (p : Progress g World) :
  ((p.compare id dependency).marks.mark other).visit = (p.marks.mark other).visit
  := by
  unfold compare
  split
  · rfl
  · split
    · by_cases h : id = other
      · subst h
        simp
      · simp [Marks.mark_change_of_ne _ h]
    · rfl

theorem marks_execute {env : Environment World} {id : g.Id} {commands : List String}
    {p q : Progress g World} {result : Except (Stop BuildError) Unit}
    (h : execute env id commands p = (result, q)) :
  q.marks = p.marks
  := by
  induction commands generalizing p with
  | nil =>
    cases h
    rfl
  | cons command rest ih =>
    simp only [execute] at h
    split at h
    · cases h
      rfl
    · have hmarks := ih h
      exact hmarks

theorem unvisited_finish_le {env : Environment World} {id : g.Id} {p q : Progress g World}
    (h : finish env id p = (.ok (), q)) :
  q.marks.unvisited ≤ p.marks.unvisited
  := by
  unfold finish at h
  split at h
  · split at h
    · simp at h
    · next _ after hexecute =>
      have hmarks := marks_execute hexecute
      simp only [settle] at h
      split at h
      · simp at h
      · next hlook =>
        cases h
        rw [← hmarks, ← marks_look hlook]
        exact Nat.le_trans (Marks.unvisited_change_le _ _ (by simp))
          (Marks.unvisited_change_le _ _ (by simp))
  · cases h
    exact Marks.unvisited_change_le _ _ (by simp)

end Progress

end IncrementalBuild
