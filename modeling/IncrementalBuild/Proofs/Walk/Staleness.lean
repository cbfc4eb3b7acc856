import IncrementalBuild.Proofs.Walk.History

/-!
# Why a node is rebuilt

`Walk.Histories` says of all nodes of a walk under way that they have the history they
should have.  A dependency has been left behind when a node is compared with it, and what
has been left behind does not change any more; so a node that has been left behind can be
judged by the marks that its dependencies have in the end.
-/

namespace IncrementalBuild

variable {g : Graph} {World : Type}

namespace Walk

variable {env : Environment World} {order order' : List g.Id} {p q : Progress g World}
  {top : Frame g} {node : g.Id} {added : List (Action g)}

/-- All of the nodes and their dependencies have been left behind. -/
def AllClosed (order : List g.Id) (p : Progress g World) : Prop :=
  ∀ node ∈ order, (∀ dependency, g.Needs node dependency → dependency ∈ order) ∧
    ∃ found, p.Closed node found

/-- The node of a frame has been compared with its dependencies up to those the frame has
yet to deal with. -/
def Ongoing (order : List g.Id) (p : Progress g World) (frame : Frame g) : Prop :=
  ∃ found compared,
    g.dependencies frame.node = compared ++ (frame.resolved.toList ++ frame.pending) ∧
    (∀ dependency ∈ compared, dependency ∈ order) ∧ p.Open frame.node found compared

/-- A frame is yet to be compared with the node of the frame above it. -/
def WaitsFor (above below : Frame g) : Prop :=
  below.resolved = some above.node

/-- Nothing has been done on nodes that have not been visited. -/
def Untouched (p : Progress g World) : Prop :=
  ∀ node, (p.marks.mark node).visit = .unvisited → p.story node = []

/-- The nodes left behind and the nodes on the way have the history they should have, each
frame waits for the one above it, and nothing has been done on other nodes. -/
structure Histories (order : List g.Id) (walk : Walk g World) : Prop where
  closed : AllClosed order walk.progress
  ongoing : ∀ frame ∈ walk.stack, Ongoing order walk.progress frame
  waits : walk.stack.IsChain WaitsFor
  resolved : ∀ frame ∈ walk.stack.head?, ∀ dependency ∈ frame.resolved, dependency ∈ order
  untouched : Untouched walk.progress

/-- Frames wait for the node of the frame on top, whatever else is in that frame. -/
theorem isChain_waitsFor_congr {first second : Frame g} {below : List (Frame g)}
    (h : (first :: below).IsChain WaitsFor) (hnode : first.node = second.node) :
  (second :: below).IsChain WaitsFor
  := by
  cases below with
  | nil => exact .singleton _
  | cons next below =>
    obtain ⟨hnext, hrest⟩ := List.isChain_cons_cons.1 h
    apply List.IsChain.cons_cons _ hrest
    rw [WaitsFor, ← hnode]
    apply hnext

/-! ### What is done on another node -/

theorem AllClosed.affected (h : AllClosed order p) (haffects : Progress.Affects node added p q)
    (hnode : node ∉ order) :
  AllClosed order q
  := by
  intro other hother
  obtain ⟨hneeds, found, hclosed⟩ := h other hother
  refine ⟨hneeds, found, hclosed.affected haffects ?_ (mt (hneeds node) hnode)⟩
  exact fun heq => hnode (heq ▸ hother)

theorem Ongoing.affected (h : Ongoing order p top) (haffects : Progress.Affects node added p q)
    (hnode : node ∉ order) (htop : top.node ≠ node) :
  Ongoing order q top
  := by
  obtain ⟨found, compared, hsplit, hcompared, hopen⟩ := h
  exact ⟨found, compared, hsplit, hcompared,
    hopen.affected haffects htop (mt (hcompared node) hnode)⟩

theorem Untouched.affected (h : Untouched p) (haffects : Progress.Affects node added p q)
    (hvisit : (q.marks.mark node).visit ≠ .unvisited) :
  Untouched q
  := by
  intro other hother
  have hne : other ≠ node := fun heq => hvisit (heq ▸ hother)
  rw [haffects.mark other hne] at hother
  rw [haffects.story other hne, h other hother]

theorem Ongoing.mono (h : Ongoing order p top) (hsub : order ⊆ order') :
  Ongoing order' p top
  := by
  obtain ⟨found, compared, hsplit, hcompared, hopen⟩ := h
  exact ⟨found, compared, hsplit, fun dependency hmem => hsub (hcompared dependency hmem), hopen⟩

/-- After the comparison that is owed, nothing is owed. -/
theorem Ongoing.compare {dependency : g.Id} {pending : List g.Id}
    (h : Ongoing order p ⟨node, pending, some dependency⟩) (hnode : node ∉ order)
    (hdependency : dependency ∈ order) :
  Ongoing order (p.compare node dependency) ⟨node, pending, none⟩
  := by
  obtain ⟨found, compared, hsplit, hcompared, hopen⟩ := h
  have hall : ∀ other ∈ compared ++ [dependency], other ∈ order := by
    intro other hother
    rcases List.mem_append.1 hother with hold | hnew
    · apply hcompared other hold
    · rw [List.mem_singleton.1 hnew]
      apply hdependency
  refine ⟨found, compared ++ [dependency], ?_, hall, ?_⟩
  · rw [hsplit]
    simp
  · apply hopen.compare fun hmem => hnode (hall node hmem)

/-- A node that has dealt with its dependencies has been compared with all of them. -/
theorem Ongoing.compared (h : Ongoing order p ⟨node, [], none⟩) :
  (∀ dependency, g.Needs node dependency → dependency ∈ order) ∧
    ∃ found, p.Open node found (g.dependencies node)
  := by
  obtain ⟨found, compared, hsplit, hcompared, hopen⟩ := h
  obtain rfl : g.dependencies node = compared := by simpa using hsplit
  exact ⟨hcompared, found, hopen⟩

/-- A node that is finished is closed. -/
theorem Ongoing.finish (h : Ongoing order p ⟨node, [], none⟩) (hnode : node ∉ order)
    (hfinish : p.finish env node = (.ok (), q)) :
  (∀ dependency, g.Needs node dependency → dependency ∈ order) ∧ ∃ found, q.Closed node found
  := by
  obtain ⟨hneeds, found, hopen⟩ := h.compared
  exact ⟨hneeds, found, hopen.finish (mt (hneeds node) hnode) hfinish⟩

/-! ### What a turn of the loop does -/

namespace Histories

variable {final rest : List g.Id} {dependency : g.Id} {below : List (Frame g)}
  {walk : Walk g World}

/-- The comparison that is owed is with a dependency that has been left behind. -/
theorem paid (hfollows : Follows final order walk) (h : Histories order walk) :
  Histories order walk.paid
  := by
  match walk with
  | ⟨[], _⟩ => exact h
  | ⟨⟨_, _, none⟩ :: _, _⟩ => exact h
  | ⟨⟨node, pending, some dependency⟩ :: below, p⟩ =>
    have hnode : node ∉ order := hfollows.not_mem_order_of_mem_path List.mem_cons_self
    have hbelow := hfollows.not_mem_below
    have hdependency : dependency ∈ order := h.resolved _ rfl dependency rfl
    have hvisit : (p.marks.mark node).visit = .inProgress :=
      (hfollows.inProgress_iff node).2 List.mem_cons_self
    obtain ⟨added, haffects⟩ := Progress.affects_compare p node dependency
    refine ⟨h.closed.affected haffects hnode, ?_, isChain_waitsFor_congr h.waits rfl,
      by simp [Walk.paid], h.untouched.affected haffects (by simp [hvisit])⟩
    intro frame hframe
    rcases List.mem_cons.1 hframe with rfl | hframe
    · apply (h.ongoing _ List.mem_cons_self).compare hnode hdependency
    · apply (h.ongoing frame (List.mem_cons_of_mem _ hframe)).affected haffects hnode
      exact fun heq => hbelow (heq ▸ List.mem_map_of_mem hframe)

/-- A dependency that is next is the one the node is compared with after it. -/
theorem ongoing_resolved (h : Histories order ⟨⟨node, dependency :: rest, none⟩ :: below, p⟩) :
  ∀ frame ∈ (⟨node, rest, some dependency⟩ :: below : List (Frame g)), Ongoing order p frame
  := by
  intro frame hframe
  rcases List.mem_cons.1 hframe with rfl | hframe
  · apply h.ongoing ⟨node, dependency :: rest, none⟩ List.mem_cons_self
  · apply h.ongoing frame (List.mem_cons_of_mem _ hframe)

theorem pass (h : Histories order ⟨⟨node, dependency :: rest, none⟩ :: below, p⟩)
    (hmem : dependency ∈ order) :
  Histories order ⟨⟨node, rest, some dependency⟩ :: below, p⟩
  where
  closed := h.closed
  ongoing := h.ongoing_resolved
  waits := isChain_waitsFor_congr h.waits rfl
  resolved := by simpa using hmem
  untouched := h.untouched

theorem descend
    (hfollows : Follows final order ⟨⟨node, dependency :: rest, none⟩ :: below, p⟩)
    (h : Histories order ⟨⟨node, dependency :: rest, none⟩ :: below, p⟩)
    (hvisit : (p.marks.mark dependency).visit = .unvisited)
    (henter : p.enter env (some node) dependency = (.ok (), q)) :
  Histories order ⟨frame g dependency :: ⟨node, rest, some dependency⟩ :: below, q⟩
  := by
  obtain ⟨found, hentered⟩ := Progress.entered_of_enter henter
  have haffects := Progress.affects_of_entered hentered
  have hnew : dependency ∉ order := hfollows.not_mem_order (by simp [hvisit])
  have hpath : dependency ∉ node :: below.map (·.node) := hfollows.not_mem_path (by simp [hvisit])
  have hopen : q.Open dependency found [] :=
    Progress.open_of_entered hentered (hfollows.clear dependency hvisit)
      (h.untouched dependency hvisit)
  refine ⟨h.closed.affected haffects hnew, ?_,
    .cons_cons rfl (isChain_waitsFor_congr h.waits rfl), by simp [frame],
    h.untouched.affected haffects (by simp [hentered.mark])⟩
  intro frame hframe
  rcases List.mem_cons.1 hframe with rfl | hframe
  · exact ⟨found, [], rfl, by simp, hopen⟩
  · apply (h.ongoing_resolved frame hframe).affected haffects hnew
    have hmem : frame.node ∈ node :: below.map (·.node) := List.mem_map_of_mem hframe
    exact fun heq => hpath (heq ▸ hmem)

theorem leave (hfollows : Follows final order ⟨⟨node, [], none⟩ :: below, p⟩)
    (h : Histories order ⟨⟨node, [], none⟩ :: below, p⟩)
    (hfinish : p.finish env node = (.ok (), q)) :
  Histories (order ++ [node]) ⟨below, q⟩
  := by
  have hnode : node ∉ order := hfollows.not_mem_order_of_mem_path List.mem_cons_self
  have hbelow := hfollows.not_mem_below
  have hsub : order ⊆ order ++ [node] := List.subset_append_left _ _
  obtain ⟨added, haffects⟩ := Progress.affects_finish hfinish
  obtain ⟨hneeds, hclosed⟩ := (h.ongoing _ List.mem_cons_self).finish hnode hfinish
  refine ⟨?_, ?_, h.waits.tail, ?_,
    h.untouched.affected haffects (by simp [Progress.visit_finish_self hfinish])⟩
  · intro other hother
    rcases List.mem_append.1 hother with hold | hnew
    · obtain ⟨hneeds, hclosed⟩ := h.closed.affected haffects hnode other hold
      exact ⟨fun dependency hdependency => hsub (hneeds dependency hdependency), hclosed⟩
    · rw [List.mem_singleton.1 hnew]
      exact ⟨fun dependency hdependency => hsub (hneeds dependency hdependency), hclosed⟩
  · intro frame hframe
    apply Ongoing.mono _ hsub
    apply (h.ongoing frame (List.mem_cons_of_mem _ hframe)).affected haffects hnode
    exact fun heq => hbelow (heq ▸ List.mem_map_of_mem hframe)
  · -- the frame that is on top now has waited for the node
    intro frame hframe dependency hdependency
    cases below with
    | nil => simp at hframe
    | cons next below =>
      obtain rfl : next = frame := by simpa using hframe
      have hwaits : next.resolved = some node := (List.isChain_cons_cons.1 h.waits).1
      obtain rfl : node = dependency := by simpa [hwaits] using hdependency
      simp

end Histories

/-- Every turn of the loop keeps the histories. -/
theorem kept_histories (env : Environment World) (final : List g.Id) :
  Kept env final Histories
  where
  paid := Histories.paid
  turn hfollows h hturn := by
    cases hturn with
    | pass hmem => exact h.pass hmem
    | descend hvisit henter => exact h.descend hfollows hvisit henter
    | leave hfinish => exact h.leave hfollows hfinish

end Walk

section

variable {env : Environment World} {world : World} {root node : g.Id} {outcome : Outcome}

/-- The histories begin when the root is entered. -/
theorem Walk.histories_of_enter_start {p : Progress g World}
    (henter : (Progress.start (Marks.clear g) world).enter env none root = (.ok (), p)) :
  Histories [] ⟨[frame g root], p⟩
  := by
  obtain ⟨found, hentered⟩ := Progress.entered_of_enter henter
  have haffects := Progress.affects_of_entered hentered
  have huntouched : Untouched (Progress.start (Marks.clear g) world) := fun _ _ => rfl
  have hopen := Progress.open_of_entered hentered (Marks.mark_clear root) rfl
  refine ⟨by simp [AllClosed], ?_, .singleton _, by simp [frame],
    huntouched.affected haffects (by simp [hentered.mark])⟩
  intro frame hframe
  rw [List.mem_singleton.1 hframe]
  exact ⟨found, [], rfl, by simp, hopen⟩

/-- After a build that succeeds, every node the root reaches is closed. -/
theorem closed_of_build (hok : (build env g (Marks.clear g) world root).result = .ok outcome)
    (hreaches : g.Reaches root node) :
  ∃ found, (build env g (Marks.clear g) world root).progress.Closed node found
  := by
  obtain ⟨order, hpost, -⟩ := exists_postOrderOf_of_survey (survey_of_build hok)
  obtain ⟨-, hhistories, -⟩ :=
    (Walk.kept_histories env order).of_build hpost (fun _ => Walk.histories_of_enter_start) hok
  apply (hhistories.closed node (hpost.mem_iff.2 hreaches)).2

/-- After a build that succeeds, a node the root reaches has to be built exactly if its file
was absent when the walk first looked at it, or if a dependency has no time in the end, or a
time later than the one first found for the node.  The time of a node is the one first
found, unless the node was rebuilt; then the walk has looked at its file again, after all of
its commands and for the last time, and the time is the one found then, if the file was
there. -/
theorem mustBuild_iff_of_build
    (hok : (build env g (Marks.clear g) world root).result = .ok outcome)
    (hreaches : g.Reaches root node) :
  let progress := (build env g (Marks.clear g) world root).progress
  ∃ before found after, progress.trace.toList = before ++ .looked node (.ok found) :: after ∧
    (∀ action ∈ before, action.node ≠ node) ∧
    env.modified (env.after world (before.filterMap Action.command?)) (g.name node) = .ok found ∧
    ((progress.marks.mark node).mustBuild = true ↔ found = none ∨
      ∃ dependency ∈ g.dependencies node,
        (progress.marks.mark dependency).modified = none ∨
        ∃ own theirs, found = some own ∧
          (progress.marks.mark dependency).modified = some theirs ∧ own < theirs) ∧
    ((progress.marks.mark node).mustBuild = false →
      (progress.marks.mark node).modified = found ∧ ∀ action ∈ after, action.node ≠ node) ∧
    ((progress.marks.mark node).mustBuild = true →
      ∃ between refreshed last, after = between ++ .looked node (.ok refreshed) :: last ∧
        (between.filter (·.node = node)).filterMap Action.command? = g.commands node ∧
        (∀ action ∈ last, action.node ≠ node) ∧
        env.modified (env.after world ((before ++ .looked node (.ok found) :: between).filterMap
          Action.command?)) (g.name node) = .ok refreshed ∧
        (progress.marks.mark node).modified = refreshed.or found)
  := by
  intro progress
  obtain ⟨order, hpost, -⟩ := exists_postOrderOf_of_survey (survey_of_build hok)
  obtain ⟨-, hbooked, -⟩ := booked_of_build hpost hok
  obtain ⟨found, hclosed⟩ := closed_of_build hok hreaches
  have hfaithful := hbooked.faithful
  cases hclosed with
  | upToDate hhistory hmust hmodified =>
    obtain ⟨before, after, htrace, hbefore, hlook, hnone⟩ := hhistory.exists_look hfaithful
    refine ⟨before, found, after, htrace, hbefore, hlook, hhistory.mustBuild_iff, ?_, ?_⟩
    · have hreason : progress.reason node found (g.dependencies node) = none := by
        rw [← Option.isNone_iff_eq_none, ← Option.not_isSome, ← hhistory.mustBuild, hmust]
        rfl
      intro _
      rw [hreason, Option.toList_none, List.append_nil, List.filter_eq_nil_iff] at hnone
      exact ⟨hmodified, by simpa using hnone⟩
    · simp [progress, hmust]
  | @rebuilt refreshed hhistory hmust hmodified =>
    obtain ⟨before, after, htrace, hbefore, hlook, hclosing⟩ := hhistory.exists_look hfaithful
    refine ⟨before, found, after, htrace, hbefore, hlook, hhistory.mustBuild_iff, ?_, ?_⟩
    · simp [progress, hmust]
    · intro _
      rw [← List.append_assoc] at hclosing
      obtain ⟨between, last, rfl, hbetween, hlast⟩ := exists_append_of_filter_snoc hclosing
      refine ⟨between, refreshed, last, rfl, ?_, hlast, ?_, hmodified⟩
      · rw [hbetween, List.filterMap_append, Progress.command?_reason, List.nil_append,
          filterMap_issued]
      · apply hfaithful _ last
        rw [htrace, List.append_assoc, List.cons_append]

end

theorem mustBuild_iff_of_build_diamond :
  let run := build .touching Graph.diamond (Marks.clear Graph.diamond)
    ["app", "left", "source", "right"] Graph.diamondRoot
  run.result = .ok ⟨"app", 2, ["right", "app"]⟩ ∧
    Graph.diamond.Reaches Graph.diamondRoot Graph.diamondRoot ∧
    ∃ before found after,
      run.progress.trace.toList = before ++ .looked Graph.diamondRoot (.ok found) :: after ∧
      ((run.progress.marks.mark Graph.diamondRoot).mustBuild = true ↔ found = none ∨
        ∃ dependency ∈ Graph.diamond.dependencies Graph.diamondRoot,
          (run.progress.marks.mark dependency).modified = none ∨
          ∃ own theirs, found = some own ∧
            (run.progress.marks.mark dependency).modified = some theirs ∧ own < theirs)
  := by
  have hreaches : Graph.diamond.Reaches Graph.diamondRoot Graph.diamondRoot := .refl
  obtain ⟨before, found, after, htrace, -, -, hiff, -⟩ :=
    mustBuild_iff_of_build result_build_diamond hreaches
  exact ⟨result_build_diamond, hreaches, before, found, after, htrace, hiff⟩

end IncrementalBuild
