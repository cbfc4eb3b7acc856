import IncrementalBuild.Proofs.Walk.History

/-!
# What an operation leaves alone

An operation of a walk on a node is `Progress.Confined` to it, whether it succeeds or not: it
changes the mark of no other node, and does nothing on any.  So what is done on nodes that are
not done `Progress.Upholds` the marks a build began with, if a node is done only once all of its
dependencies are: what was done in them is as it was, nothing has been done on it, the
dependencies of what is done are done, and the commands of a node that has been done meanwhile
have been given once if it had to be built, and otherwise not at all.
-/

namespace IncrementalBuild

variable {g : Graph} {World : Type}

/-- The dependencies of what is done are done. -/
def Marks.Settled (marks : Marks g) : Prop :=
  ∀ node dependency, (marks.mark node).visit = .done → g.Needs node dependency →
    (marks.mark dependency).visit = .done

namespace Progress

variable {env : Environment World} {p q r : Progress g World} {node other : g.Id}
  {marks : Marks g} {e : Stop BuildError}

/-! ### Operations on one node -/

/-- Nothing has been done on any node but one. -/
structure Confined (node : g.Id) (p q : Progress g World) : Prop where
  mark : ∀ other, other ≠ node → q.marks.mark other = p.marks.mark other
  story : ∀ other, other ≠ node → q.story other = p.story other

theorem Affects.confined {added : List (Action g)} (h : Affects node added p q) :
  Confined node p q
  := ⟨h.mark, h.story⟩

theorem Confined.refl (node : g.Id) (p : Progress g World) :
  Confined node p p
  := ⟨fun _ _ => rfl, fun _ _ => rfl⟩

theorem Confined.trans (h : Confined node p q) (h' : Confined node q r) :
  Confined node p r
  where
  mark other hother := (h'.mark other hother).trans (h.mark other hother)
  story other hother := (h'.story other hother).trans (h.story other hother)

theorem confined_record (p : Progress g World) (action : Action g) :
  Confined action.node p (p.record action)
  where
  mark _ _ := rfl
  story _ hother := by simp [story, record, List.filter_append, Ne.symm hother]

theorem confined_mark (p : Progress g World) (node : g.Id) (f : Mark → Mark) :
  Confined node p (p.mark node f)
  where
  mark _ hother := Marks.mark_change_of_ne _ (Ne.symm hother) f
  story _ _ := rfl

theorem confined_compare (p : Progress g World) (node dependency : g.Id) :
  Confined node p (p.compare node dependency)
  := by
  obtain ⟨added, haffects⟩ := affects_compare p node dependency
  exact haffects.confined

theorem confined_enter (env : Environment World) (parent? : Option g.Id) (node : g.Id)
    (p : Progress g World) :
  Confined node p (p.enter env parent? node).2
  := by
  unfold enter look
  cases env.modified p.world (g.name node) with
  | error e => apply confined_record p (.looked node (.error e))
  | ok found =>
    have hmarked := (confined_record p (.looked node (.ok found))).trans
      (confined_mark _ node ({ · with visit := .inProgress, modified := found }))
    simp only
    split
    · exact hmarked
    · split
      · exact (hmarked.trans (confined_record _ (.foundAbsent node))).trans (confined_mark _ node _)
      · exact hmarked

theorem confined_execute (env : Environment World) (node : g.Id) (commands : List String)
    (p : Progress g World) :
  Confined node p (p.execute env node commands).2
  := by
  induction commands generalizing p with
  | nil => exact .refl node p
  | cons command rest ih =>
    have hissued := confined_record p (.issued node command)
    simp only [execute]
    split
    · exact ⟨hissued.mark, hissued.story⟩
    · apply Confined.trans _ (ih _)
      exact ⟨hissued.mark, hissued.story⟩

theorem confined_settle (env : Environment World) (node : g.Id) (p : Progress g World) :
  Confined node p (p.settle env node).2
  := by
  have hlooked (found : Except (Stop StatError) (Option Stamp)) : Confined node p
      (record { p with rebuilt := p.rebuilt.push node } (.looked node found)) :=
    ⟨(confined_record p (.looked node found)).mark, (confined_record p (.looked node found)).story⟩
  cases hfile : env.modified p.world (g.name node) with
  | error e =>
    rw [settle_of_error hfile]
    exact hlooked (.error e)
  | ok found =>
    rw [settle_of_ok hfile]
    have hmarked := (hlooked (.ok found)).trans (confined_mark _ node
      fun mark => { mark with modified := found.or mark.modified })
    exact hmarked.trans (confined_mark _ node _)

theorem confined_finish (env : Environment World) (node : g.Id) (p : Progress g World) :
  Confined node p (p.finish env node).2
  := by
  unfold finish
  split
  · have hexecute := confined_execute env node (g.node node).commands.toList p
    split
    · next herror =>
      rw [herror] at hexecute
      exact hexecute
    · next hok =>
      rw [hok] at hexecute
      exact hexecute.trans (confined_settle env node _)
  · exact confined_mark p node _

/-- A node is not done when it is entered. -/
theorem visit_enter_ne_done (env : Environment World) (parent? : Option g.Id)
    (h : (p.marks.mark node).visit ≠ .done) :
  ((p.enter env parent? node).2.marks.mark node).visit ≠ .done
  := by
  unfold enter look
  cases env.modified p.world (g.name node) with
  | error e => exact h
  | ok found =>
    simp only
    split
    · simp
    · split <;> simp

/-- No mark changes when a node cannot be finished. -/
theorem marks_of_finish_error (h : p.finish env node = (.error e, q)) :
  q.marks = p.marks
  := by
  unfold finish at h
  split at h
  · split at h
    · next hexecute =>
      cases h
      exact marks_execute hexecute
    · next mid hexecute =>
      cases hfile : env.modified mid.world (g.name node) with
      | ok found => simp [settle_of_ok hfile] at h
      | error cause =>
        rw [settle_of_error hfile] at h
        cases h
        have hmarks := marks_execute hexecute
        exact hmarks
  · cases h

/-- The commands of a node that have been given to be executed. -/
def commandsOf (p : Progress g World) (node : g.Id) : List String :=
  (p.story node).filterMap Action.command?

theorem commandsOf_entered {found : Option Stamp} (h : Entered env node found p q) :
  q.commandsOf node = p.commandsOf node
  := by
  rw [commandsOf, (affects_of_entered h).story_self, List.filterMap_append, List.filterMap_cons,
    command?_reason]
  simp [commandsOf, Action.command?]

theorem commandsOf_compare (p : Progress g World) (node dependency other : g.Id) :
  (p.compare node dependency).commandsOf other = p.commandsOf other
  := by
  unfold compare
  split
  · rfl
  · split
    · simp only [commandsOf, story, mark, record, Array.toList_push, List.filter_append,
        List.filterMap_append]
      by_cases hother : node = other <;> simp [hother, Action.node, Action.command?]
    · rfl

/-- The commands of a node are given when it is finished, if it has to be built. -/
theorem commandsOf_finish (h : p.finish env node = (.ok (), q)) :
  q.commandsOf node
    = p.commandsOf node ++ if (q.marks.mark node).mustBuild then g.commands node else []
  := by
  cases hmust : (p.marks.mark node).mustBuild with
  | false =>
    rw [eq_leave_of_finish hmust h, mark_leave, if_pos rfl]
    simp [commandsOf, story, leave, mark, hmust]
  | true =>
    obtain ⟨refreshed, hrebuilt⟩ := rebuilt_of_finish hmust h
    rw [commandsOf, (affects_of_rebuilt hrebuilt).story_self, hrebuilt.mark, if_pos rfl,
      List.filterMap_append, List.filterMap_append, filterMap_issued]
    simp [commandsOf, Action.command?, hmust]

/-! ### Marks that are upheld -/

/-- What was done in some marks has been left alone, the dependencies of what is done are done,
and what has been done meanwhile has been given its commands once, if it had to be built. -/
structure Upholds (marks : Marks g) (p : Progress g World) : Prop where
  kept : ∀ node, (marks.mark node).visit = .done → p.marks.mark node = marks.mark node
  untouched : ∀ node, (marks.mark node).visit = .done → p.story node = []
  settled : p.marks.Settled
  issued : ∀ node, (marks.mark node).visit ≠ .done → (p.marks.mark node).visit = .done →
    p.commandsOf node = if (p.marks.mark node).mustBuild then g.commands node else []

/-- The nodes that have been rebuilt are different nodes, done now and not done in some marks. -/
structure Fresh (marks : Marks g) (p : Progress g World) : Prop where
  nodup : p.rebuilt.toList.Nodup
  done : ∀ node ∈ p.rebuilt.toList, (p.marks.mark node).visit = .done
  new : ∀ node ∈ p.rebuilt.toList, (marks.mark node).visit ≠ .done

theorem upholds_start (h : marks.Settled) (world : World) :
  Upholds marks (.start marks world)
  where
  kept _ _ := rfl
  untouched _ _ := rfl
  settled := h
  issued _ hnew hdone := absurd hdone hnew

theorem fresh_start (marks : Marks g) (world : World) :
  Fresh marks (.start marks world)
  := by constructor <;> simp [start]

/-- Marks are upheld by what is done on a node that is not done in them, if its dependencies are
done before it is, and it has been given its commands then. -/
theorem Upholds.confined (h : Upholds marks p) (hconfined : Confined node p q)
    (hnode : (p.marks.mark node).visit ≠ .done)
    (hdone : (q.marks.mark node).visit = .done →
      (∀ dependency, g.Needs node dependency → (p.marks.mark dependency).visit = .done) ∧
        q.commandsOf node = if (q.marks.mark node).mustBuild then g.commands node else []) :
  Upholds marks q
  := by
  have hold : (marks.mark node).visit ≠ .done := fun hold => hnode (h.kept node hold ▸ hold)
  have hsame : ∀ other, (p.marks.mark other).visit = .done →
      q.marks.mark other = p.marks.mark other := by
    intro other hother
    apply hconfined.mark other
    rintro rfl
    exact hnode hother
  constructor
  · intro other hother
    rw [← h.kept other hother]
    apply hsame
    rw [h.kept other hother, hother]
  · intro other hother
    rw [hconfined.story other fun heq => hold (heq ▸ hother)]
    exact h.untouched other hother
  · intro other dependency hother hneeds
    have hdependency : (p.marks.mark dependency).visit = .done := by
      by_cases heq : other = node
      · subst heq
        exact (hdone hother).1 dependency hneeds
      · rw [hconfined.mark other heq] at hother
        exact h.settled other dependency hother hneeds
    rw [hsame dependency hdependency, hdependency]
  · intro other hnew hother
    by_cases heq : other = node
    · subst heq
      exact (hdone hother).2
    · rw [hconfined.mark other heq] at hother ⊢
      rw [commandsOf, hconfined.story other heq]
      exact h.issued other hnew hother

theorem Upholds.compare (h : Upholds marks p) (hnode : (p.marks.mark node).visit ≠ .done)
    (dependency : g.Id) :
  Upholds marks (p.compare node dependency)
  := by
  apply h.confined (confined_compare p node dependency) hnode
  intro hdone
  rw [visit_compare] at hdone
  exact absurd hdone hnode

/-- Marks are upheld when a node is entered that is not done, whether it can be or not. -/
theorem Upholds.enter {parent? : Option g.Id} {result : Except (Stop BuildError) Unit}
    (h : Upholds marks p) (hnode : (p.marks.mark node).visit ≠ .done)
    (henter : p.enter env parent? node = (result, q)) :
  Upholds marks q
  := by
  have hconfined := confined_enter env parent? node p
  have hvisit := visit_enter_ne_done env parent? hnode
  rw [henter] at hconfined hvisit
  apply h.confined hconfined hnode
  intro hdone
  exact absurd hdone hvisit

theorem Upholds.finish_error (h : Upholds marks p) (hnode : (p.marks.mark node).visit ≠ .done)
    (hfinish : p.finish env node = (.error e, q)) :
  Upholds marks q
  := by
  have hconfined := confined_finish env node p
  rw [hfinish] at hconfined
  apply h.confined hconfined hnode
  intro hdone
  rw [marks_of_finish_error hfinish] at hdone
  exact absurd hdone hnode

theorem Upholds.finish (h : Upholds marks p) (hnode : (p.marks.mark node).visit ≠ .done)
    (hdependencies : ∀ dependency, g.Needs node dependency →
      (p.marks.mark dependency).visit = .done)
    (hsilent : p.commandsOf node = []) (hfinish : p.finish env node = (.ok (), q)) :
  Upholds marks q
  := by
  have hconfined := confined_finish env node p
  rw [hfinish] at hconfined
  apply h.confined hconfined hnode
  intro _
  use hdependencies
  rw [commandsOf_finish hfinish, hsilent, List.nil_append]

theorem Fresh.of_rebuilt_eq (h : Fresh marks p) (hrebuilt : q.rebuilt = p.rebuilt)
    (hdone : ∀ other, (p.marks.mark other).visit = .done → (q.marks.mark other).visit = .done) :
  Fresh marks q
  where
  nodup := hrebuilt ▸ h.nodup
  done other hother := hdone other (h.done other (hrebuilt ▸ hother))
  new other hother := h.new other (hrebuilt ▸ hother)

/-- What is done stays done when another node is entered. -/
theorem Entered.done {found : Option Stamp} (h : Entered env node found p q)
    (hnode : (p.marks.mark node).visit ≠ .done) (hother : (p.marks.mark other).visit = .done) :
  (q.marks.mark other).visit = .done
  := by
  have hne : other ≠ node := fun heq => hnode (heq ▸ hother)
  rw [h.mark, if_neg hne, hother]

/-- What is done stays done when a node is finished. -/
theorem done_finish (h : p.finish env node = (.ok (), q))
    (hother : (p.marks.mark other).visit = .done) :
  (q.marks.mark other).visit = .done
  := by
  by_cases heq : other = node
  · rw [heq, visit_finish_self h]
  · rw [mark_finish_of_ne h heq, hother]

theorem Fresh.finish (h : Fresh marks p) (hp : (p.marks.mark node).visit ≠ .done)
    (hnode : (marks.mark node).visit ≠ .done) (hfinish : p.finish env node = (.ok (), q)) :
  Fresh marks q
  := by
  cases hmust : (p.marks.mark node).mustBuild with
  | false =>
    apply h.of_rebuilt_eq _ fun other => done_finish hfinish
    rw [eq_leave_of_finish hmust hfinish]
    rfl
  | true =>
    obtain ⟨refreshed, hrebuilt⟩ := rebuilt_of_finish hmust hfinish
    constructor
    · rw [hrebuilt.rebuilt, ← List.concat_eq_append]
      apply h.nodup.concat fun hmem => hp (h.done node hmem)
    · rw [hrebuilt.rebuilt, List.forall_mem_append, List.forall_mem_singleton]
      exact ⟨fun other hother => done_finish hfinish (h.done other hother),
        visit_finish_self hfinish⟩
    · rw [hrebuilt.rebuilt, List.forall_mem_append, List.forall_mem_singleton]
      exact ⟨h.new, hnode⟩

/-- No command has been given of a node that is not done. -/
def Silent (p : Progress g World) : Prop :=
  ∀ node, (p.marks.mark node).visit ≠ .done → p.commandsOf node = []

theorem Silent.compare (h : p.Silent) (node dependency : g.Id) :
  (p.compare node dependency).Silent
  := by
  intro other hother
  rw [visit_compare] at hother
  rw [commandsOf_compare, h other hother]

theorem Silent.enter {found : Option Stamp} (h : p.Silent) (hentered : Entered env node found p q)
    (hnode : (p.marks.mark node).visit ≠ .done) :
  q.Silent
  := by
  intro other hother
  by_cases heq : other = node
  · rw [heq, commandsOf_entered hentered, h node hnode]
  · rw [hentered.mark, if_neg heq] at hother
    rw [commandsOf, (affects_of_entered hentered).story other heq]
    exact h other hother

theorem Silent.finish (h : p.Silent) (hfinish : p.finish env node = (.ok (), q)) :
  q.Silent
  := by
  have hconfined := confined_finish env node p
  rw [hfinish] at hconfined
  intro other hother
  have heq : other ≠ node := fun heq => hother (heq ▸ visit_finish_self hfinish)
  rw [mark_finish_of_ne hfinish heq] at hother
  rw [commandsOf, hconfined.story other heq]
  exact h other hother

end Progress

end IncrementalBuild
