import IncrementalBuild.Proofs.Walk.Staleness

/-!
# What is recorded of a file, and what was seen of it last

A walk looks at the file of a node when it enters the node, and again when it has run the
commands of the node.  The time it records is the one it saw last, with one exception: if the
file was there at first and is gone after the commands, then the time at first stays recorded,
and what depends on the node is compared with a file that is not there.  So a node is recorded
as absent only if its file was absent both times, and then all that depends on it has to be
built.

`Environment.removing` is an environment in which a command removes a file.
-/

namespace IncrementalBuild

/-- A world is the list of its files, the newest first, and a command removes the file of its
name. -/
def Environment.removing : Environment (List String) where
  modified := touching.modified
  execute files command := (.ok (), files.erase command)

variable {g : Graph} {World : Type}

namespace Progress

variable {env : Environment World} {world : World} {p : Progress g World} {node : g.Id}
  {found : Option Stamp}

/-- The first look at the file of a node, which nothing done on the node comes before. -/
def FirstLook (env : Environment World) (world : World) (p : Progress g World) (node : g.Id)
    (found : Option Stamp) : Prop :=
  ∃ before after, p.trace.toList = before ++ .looked node (.ok found) :: after ∧
    (∀ action ∈ before, action.node ≠ node) ∧
    env.modified (env.after world (before.filterMap Action.command?)) (g.name node) = .ok found

/-- The last look at the file of a node, which nothing done on the node comes after. -/
def LastLook (env : Environment World) (world : World) (p : Progress g World) (node : g.Id)
    (found : Option Stamp) : Prop :=
  ∃ before after, p.trace.toList = before ++ .looked node (.ok found) :: after ∧
    (∀ action ∈ after, action.node ≠ node) ∧
    env.modified (env.after world (before.filterMap Action.command?)) (g.name node) = .ok found

theorem History.firstLook {compared : List g.Id} {closing : List (Action g)}
    (h : History p node found compared closing) (hfaithful : Faithful env world p.trace.toList) :
  FirstLook env world p node found
  := by
  obtain ⟨before, after, htrace, hbefore, hlook, -⟩ := h.exists_look hfaithful
  exact ⟨before, after, htrace, hbefore, hlook⟩

/-- If the last thing done on a node was a look at its file, that was the last look. -/
theorem lastLook_of_story {earlier : List (Action g)}
    (hfaithful : Faithful env world p.trace.toList)
    (h : p.story node = earlier ++ [.looked node (.ok found)]) :
  LastLook env world p node found
  := by
  obtain ⟨before, after, htrace, -, hafter⟩ := exists_append_of_filter_snoc h
  exact ⟨before, after, htrace, hafter, hfaithful before after node _ htrace⟩

/-- What is recorded of the file of a node that has been left behind is what was seen last, or
else what was seen first. -/
theorem Closed.looks (h : Closed p node found) (hfaithful : Faithful env world p.trace.toList) :
  ∃ last, FirstLook env world p node found ∧ LastLook env world p node last ∧
    (p.marks.mark node).modified = last.or found
  := by
  cases h with
  | upToDate hhistory hmust hmodified =>
    have hreason : p.reason node found (g.dependencies node) = none := by
      rw [← Option.not_isSome_iff_eq_none, ← hhistory.mustBuild, hmust]
      simp
    have hstory : p.story node = [] ++ [.looked node (.ok found)] := by
      rw [hhistory.story, hreason]
      rfl
    exact ⟨found, hhistory.firstLook hfaithful, lastLook_of_story hfaithful hstory,
      by rw [hmodified, Option.or_self]⟩
  | @rebuilt refreshed hhistory hmust hmodified =>
    refine ⟨refreshed, hhistory.firstLook hfaithful, ?_, hmodified⟩
    apply lastLook_of_story hfaithful
    rw [hhistory.story, ← List.append_assoc, ← List.cons_append]

end Progress

section

variable {env : Environment World} {world : World} {root node : g.Id} {outcome : Outcome}

/-- After a build that succeeds, a node the root reaches has to be built if a dependency of it
is recorded as absent. -/
theorem mustBuild_of_modified_eq_none {dependency : g.Id}
    (hok : (build env g (Marks.clear g) world root).result = .ok outcome)
    (hreaches : g.Reaches root node) (hneeds : g.Needs node dependency)
    (habsent : ((build env g (Marks.clear g) world root).progress.marks.mark dependency).modified
      = none) :
  ((build env g (Marks.clear g) world root).progress.marks.mark node).mustBuild = true
  := by
  obtain ⟨found, hclosed⟩ := closed_of_build hok hreaches
  cases hclosed with
  | upToDate hhistory | rebuilt hhistory =>
    exact hhistory.mustBuild_iff.2 (.inr ⟨dependency, hneeds, .inl habsent⟩)

/-- After a build that succeeds, the time recorded for a node the root reaches is the one seen
at the last look at its file, or, if there was no file, the one seen at the first look.  So it
is what was seen last, unless the file was there at first and gone in the end.  If the file was
absent both times, every node that depends on it had to be built. -/
theorem modified_of_build (hok : (build env g (Marks.clear g) world root).result = .ok outcome)
    (hreaches : g.Reaches root node) :
  let progress := (build env g (Marks.clear g) world root).progress
  ∃ first last, progress.FirstLook env world node first ∧ progress.LastLook env world node last ∧
    (progress.marks.mark node).modified = last.or first ∧
    ((progress.marks.mark node).modified = last ↔ (last = none → first = none)) ∧
    (first = none → last = none → ∀ dependent, g.Reaches root dependent → g.Needs dependent node →
      (progress.marks.mark dependent).mustBuild = true)
  := by
  intro progress
  obtain ⟨order, hpost, -⟩ := exists_postOrderOf_of_survey (survey_of_build hok)
  obtain ⟨-, hbooked, -⟩ := booked_of_build hpost hok
  obtain ⟨first, hclosed⟩ := closed_of_build hok hreaches
  obtain ⟨last, hfirst, hlast, hmodified⟩ := hclosed.looks hbooked.faithful
  refine ⟨first, last, hfirst, hlast, hmodified, ?_, ?_⟩
  · rw [hmodified]
    cases last <;> simp
  · rintro rfl rfl dependent hdependent hneeds
    apply mustBuild_of_modified_eq_none hok hdependent hneeds hmodified

end

/-! ### A command that removes the file of its target -/

/-- The right part of `diamond`. -/
def Graph.diamondRight : Graph.diamond.Id :=
  ⟨2, by decide⟩

theorem Graph.needs_diamondRight :
  Graph.diamond.Needs Graph.diamondRoot Graph.diamondRight
  := by
  have hdependencies : Graph.diamond.dependencies Graph.diamondRoot
      = [⟨1, by decide⟩, Graph.diamondRight] := by cbv
  rw [Needs, hdependencies]
  simp

/-- The right part of `diamond` is older than its source, so its command is run, and removes
it. -/
def removal : Run Graph.diamond (List String) :=
  build .removing Graph.diamond (Marks.clear Graph.diamond) ["app", "left", "source", "right"]
    Graph.diamondRoot

/-- How it ends: the right part is gone when it is looked at for the last time. -/
theorem removal_cases :
  removal.result = .ok ⟨"app", 1, ["right"]⟩ ∧
    removal.progress.trace.toList.getLast? = some (.looked Graph.diamondRight (.ok none)) ∧
    (removal.progress.marks.mark Graph.diamondRight).modified = some (.tick 1) ∧
    (removal.progress.marks.mark Graph.diamondRoot).mustBuild = false
  := by
  cbv
  exact ⟨rfl, trivial⟩

theorem modified_of_build_removal :
  removal.result = .ok ⟨"app", 1, ["right"]⟩ ∧
    ∃ first last,
      removal.progress.FirstLook .removing ["app", "left", "source", "right"] Graph.diamondRight
        first ∧
      removal.progress.LastLook .removing ["app", "left", "source", "right"] Graph.diamondRight
        last ∧
      (removal.progress.marks.mark Graph.diamondRight).modified = last.or first
  := by
  have hresult := removal_cases.1
  obtain ⟨first, last, hfirst, hlast, hmodified, -⟩ :=
    modified_of_build hresult (.single Graph.needs_diamondRight)
  exact ⟨hresult, first, last, hfirst, hlast, hmodified⟩

/-- The right part was gone at the last look, but is recorded as it was at first, and the
program, which depends on it, is not built. -/
theorem modified_ne_lastLook_removal :
  removal.result = .ok ⟨"app", 1, ["right"]⟩ ∧
    Graph.diamond.Needs Graph.diamondRoot Graph.diamondRight ∧
    removal.progress.LastLook .removing ["app", "left", "source", "right"] Graph.diamondRight
      none ∧
    (removal.progress.marks.mark Graph.diamondRight).modified = some (.tick 1) ∧
    (removal.progress.marks.mark Graph.diamondRoot).mustBuild = false
  := by
  obtain ⟨hresult, hlast, hmodified, hstale⟩ := removal_cases
  obtain ⟨order, hpost, -⟩ := exists_postOrderOf_of_survey (survey_of_build hresult)
  obtain ⟨-, hbooked, -⟩ := booked_of_build hpost hresult
  obtain ⟨before, htrace⟩ := List.getLast?_eq_some_iff.1 hlast
  refine ⟨hresult, Graph.needs_diamondRight, ?_, hmodified, hstale⟩
  exact ⟨before, [], htrace, by simp, hbooked.faithful before [] _ _ htrace⟩

end IncrementalBuild
