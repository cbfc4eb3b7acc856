import IncrementalBuild.Proofs.Walk.Run

/-!
# What a build has brought up to date

`Walk.Booked` ties what a walk has recorded to the nodes it has left behind: the nodes
rebuilt are those left behind that had to be built, in the order in which they were left;
the commands given to be executed are theirs, node after node; and the trace is `Faithful`,
that is, every look at a file found what was there in the world that the commands before it
had led to.

So a build that succeeds has rebuilt the nodes of the post-order of its root that had to be
built, and has run their commands and no others.
-/

namespace IncrementalBuild

variable {g : Graph} {World : Type}

/-! ### What is booked -/

namespace Progress

variable {env : Environment World} {world : World} {order : List g.Id} {p q : Progress g World}
  {node : g.Id}

/-- A node has been found to have to be built. -/
def IsStale (p : Progress g World) (node : g.Id) : Bool :=
  (p.marks.mark node).mustBuild

theorem filter_isStale_congr (hnode : node ∉ order)
    (h : ∀ other, other ≠ node → q.marks.mark other = p.marks.mark other) :
  order.filter q.IsStale = order.filter p.IsStale
  := by
  apply List.filter_congr
  intro other hother
  have hne : other ≠ node := fun heq => hnode (heq ▸ hother)
  rw [IsStale, IsStale, h other hne]

/-- What has been recorded since `world` is what has been done with the nodes `order`, which
have been left behind. -/
structure Booked (env : Environment World) (world : World) (order : List g.Id)
    (p : Progress g World) : Prop where
  rebuilt : p.rebuilt.toList = order.filter p.IsStale
  commands : p.commands = p.rebuilt.toList.flatMap g.commands
  commandsRun : p.commandsRun = p.commands.length
  reached : p.world = env.after world p.commands
  faithful : Faithful env world p.trace.toList

namespace Booked

/-- A comparison changes nothing that is booked. -/
theorem compare (h : Booked env world order p) (hnode : node ∉ order) (dependency : g.Id) :
  Booked env world order (p.compare node dependency)
  where
  rebuilt := by
    rw [rebuilt_compare, h.rebuilt]
    symm
    apply filter_isStale_congr hnode
    intro other hother
    apply mark_compare_of_ne p node dependency hother
  commands := by simpa using h.commands
  commandsRun := by simpa using h.commandsRun
  reached := by simpa using h.reached
  faithful := by
    unfold Progress.compare
    split
    · apply h.faithful
    · split
      · simpa [mark, record] using
          h.faithful.snoc (.foundOutdated node dependency) (by simp)
      · apply h.faithful

/-- A node that is entered is not booked. -/
theorem enter {found : Option Stamp} (h : Booked env world order p) (hnode : node ∉ order)
    (hentered : Entered env node found p q) :
  Booked env world order q
  := by
  have hcommands := hentered.commands
  constructor
  · rw [hentered.rebuilt, h.rebuilt]
    symm
    apply filter_isStale_congr hnode
    intro other hother
    rw [hentered.mark, if_neg hother]
  · rw [hcommands, hentered.rebuilt, h.commands]
  · rw [hcommands, hentered.commandsRun, h.commandsRun]
  · rw [hcommands, hentered.world, h.reached]
  · have hlooked : Faithful env world (p.trace.toList ++ [.looked node (.ok found)]) := by
      apply h.faithful.snoc (.looked node (.ok found))
      intro other found' heq
      cases heq
      rw [← hentered.file, h.reached]
      rfl
    rw [hentered.trace]
    split
    · rw [List.append_cons]
      apply hlooked.snoc (.foundAbsent node) (by simp)
    · apply hlooked

/-- A node that is left without being built is left behind. -/
theorem leave (h : Booked env world order p) (hnode : node ∉ order)
    (hstale : p.IsStale node = false) :
  Booked env world (order ++ [node]) (p.leave node)
  where
  rebuilt := by
    have hnew : (p.leave node).IsStale node = false := by
      rw [IsStale, mark_leave, if_pos rfl]
      apply hstale
    have hold : order.filter (p.leave node).IsStale = order.filter p.IsStale := by
      apply filter_isStale_congr hnode
      intro other hother
      rw [mark_leave, if_neg hother]
    rw [List.filter_append, hold, List.filter_singleton, hnew, ← h.rebuilt]
    simp [Progress.leave, mark]
  commands := h.commands
  commandsRun := h.commandsRun
  reached := h.reached
  faithful := h.faithful

/-- A node that has been rebuilt is left behind, and its commands are booked. -/
theorem rebuild {refreshed : Option Stamp} (h : Booked env world order p) (hnode : node ∉ order)
    (hstale : p.IsStale node = true) (hrebuilt : Rebuilt env node refreshed p q) :
  Booked env world (order ++ [node]) q
  := by
  have hcommands := hrebuilt.commands
  constructor
  · have hnew : q.IsStale node = true := by
      rw [IsStale, hrebuilt.mark, if_pos rfl]
      apply hstale
    have hold : order.filter q.IsStale = order.filter p.IsStale := by
      apply filter_isStale_congr hnode
      intro other hother
      rw [hrebuilt.mark, if_neg hother]
    rw [List.filter_append, hold, List.filter_singleton, hnew, ← h.rebuilt, hrebuilt.rebuilt]
    rfl
  · rw [hcommands, hrebuilt.rebuilt, h.commands]
    simp
  · rw [hcommands, hrebuilt.commandsRun, h.commandsRun, List.length_append]
  · rw [hcommands, hrebuilt.world, h.reached, Environment.after_append]
  · rw [hrebuilt.trace, ← List.append_assoc]
    apply (h.faithful.append_issued node _).snoc (.looked node (.ok refreshed))
    intro other found heq
    cases heq
    rw [← hrebuilt.file, hrebuilt.world, h.reached, ← Environment.after_append,
      List.filterMap_append, filterMap_issued]
    rfl

theorem finish (h : Booked env world order p) (hnode : node ∉ order)
    (hfinish : p.finish env node = (.ok (), q)) :
  Booked env world (order ++ [node]) q
  := by
  cases hmust : (p.marks.mark node).mustBuild with
  | false =>
    rw [eq_leave_of_finish hmust hfinish]
    apply h.leave hnode hmust
  | true =>
    obtain ⟨refreshed, hrebuilt⟩ := rebuilt_of_finish hmust hfinish
    apply h.rebuild hnode hmust hrebuilt

end Booked

theorem booked_start (env : Environment World) (world : World) :
  Booked env world [] (start (Marks.clear g) world)
  := by
  constructor <;> simp [start, Progress.commands, Environment.after, Faithful.nil]

/-- After the root has been entered nothing is booked. -/
theorem booked_of_enter_start {parent? : Option g.Id}
    (h : (start (Marks.clear g) world).enter env parent? node = (.ok (), p)) :
  Booked env world [] p
  := by
  obtain ⟨found, hentered⟩ := entered_of_enter h
  apply (booked_start env world).enter List.not_mem_nil hentered

end Progress

/-- Every turn of the loop keeps the books. -/
theorem Walk.kept_booked (env : Environment World) (world : World) (final : List g.Id) :
  Walk.Kept env final fun order walk => Progress.Booked env world order walk.progress
  where
  paid {order walk} hfollows h := by
    match walk with
    | ⟨[], _⟩ => exact h
    | ⟨⟨_, _, none⟩ :: _, _⟩ => exact h
    | ⟨⟨node, _, some dependency⟩ :: _, _⟩ =>
      apply h.compare (hfollows.not_mem_order_of_mem_path List.mem_cons_self) dependency
  turn hfollows h hturn := by
    cases hturn with
    | pass _ => exact h
    | descend hvisit henter =>
      obtain ⟨found, hentered⟩ := Progress.entered_of_enter henter
      apply h.enter (hfollows.not_mem_order (by simp [hvisit])) hentered
    | leave hfinish =>
      apply h.finish (hfollows.not_mem_order_of_mem_path List.mem_cons_self) hfinish

/-- At the end of a build that succeeds, what is booked is about the post-order of its root,
which the walk has followed to its end. -/
theorem booked_of_build {env : Environment World} {world : World} {root : g.Id}
    {final : List g.Id} {outcome : Outcome} (hpost : g.PostOrderOf root final)
    (hok : (build env g (Marks.clear g) world root).result = .ok outcome) :
  let progress := (build env g (Marks.clear g) world root).progress
  Walk.Follows final final ⟨[], progress⟩ ∧ Progress.Booked env world final progress ∧
    outcome = ⟨g.name root, progress.commandsRun, progress.rebuilt.toList.map g.name⟩
  := by
  apply (Walk.kept_booked env world final).of_build hpost _ hok
  exact fun _ henter => Progress.booked_of_enter_start henter

/-- A build from clear marks that succeeds has followed the depth-first post-order of the
nodes its root reaches.  It has rebuilt the nodes of it that had to be built, in that order
and none of them twice, hence after those they depend on; it has given the commands of these
nodes to be executed, and no others; and it has left all nodes the root reaches as done and
all others as they were.  The graph it was given is not changed by a build. -/
theorem exists_postOrderOf_of_build {env : Environment World} {world : World} {root : g.Id}
    {outcome : Outcome} (hok : (build env g (Marks.clear g) world root).result = .ok outcome) :
  let run := build env g (Marks.clear g) world root
  ∃ order, g.PostOrderOf root order ∧ order.Nodup ∧ (∀ node, node ∈ order ↔ g.Reaches root node) ∧
    outcome.root = g.name root ∧
    outcome.rebuilt = (order.filter run.progress.IsStale).map g.name ∧
    outcome.rebuilt.Nodup ∧
    (∀ name, name ∈ outcome.rebuilt ↔
      ∃ node, g.Reaches root node ∧ (run.progress.marks.mark node).mustBuild = true ∧
        g.name node = name) ∧
    (∀ node dependency, g.DependsOn node dependency → g.name node ∈ outcome.rebuilt →
      g.name dependency ∈ outcome.rebuilt →
      [g.name dependency, g.name node].Sublist outcome.rebuilt) ∧
    run.commands = (order.filter run.progress.IsStale).flatMap g.commands ∧
    outcome.commandsRun = run.commands.length ∧
    run.progress.world = env.after world run.commands ∧
    (∀ node, g.Reaches root node → (run.progress.marks.mark node).visit = .done) ∧
    ∀ node, ¬ g.Reaches root node → run.progress.marks.mark node = (Marks.clear g).mark node
  := by
  intro run
  obtain ⟨order, hpost, -⟩ := exists_postOrderOf_of_survey (survey_of_build hok)
  obtain ⟨hfollows, hbooked, hresult⟩ := booked_of_build hpost hok
  have hrebuilt : outcome.rebuilt = (order.filter run.progress.IsStale).map g.name := by
    rw [hresult, ← hbooked.rebuilt]
  have hmem : ∀ node, g.name node ∈ outcome.rebuilt ↔
      node ∈ order ∧ run.progress.IsStale node = true := by
    intro node
    rw [hrebuilt, List.mem_map_of_injective g.name_injective, List.mem_filter]
  refine ⟨order, hpost, hpost.nodup, fun node => hpost.mem_iff, ?_, hrebuilt, ?_, ?_, ?_, ?_, ?_,
    hbooked.reached, ?_, ?_⟩
  · rw [hresult]
  · rw [hrebuilt]
    apply (hpost.nodup.filter _).map g.name_injective
  · intro name
    constructor
    · intro hname
      obtain ⟨node, hnode, rfl⟩ := List.mem_map.1 (hrebuilt ▸ hname)
      obtain ⟨horder, hstale⟩ := List.mem_filter.1 hnode
      exact ⟨node, hpost.mem_iff.1 horder, hstale, rfl⟩
    · rintro ⟨node, hreaches, hstale, rfl⟩
      apply (hmem node).2 ⟨hpost.mem_iff.2 hreaches, hstale⟩
  · intro node dependency hdepends hnode hdependency
    have hsub := hpost.dependenciesFirst.sublist_of_dependsOn ((hmem node).1 hnode).1 hdepends
    have hfilter := (hsub.filter run.progress.IsStale).map g.name
    rw [← hrebuilt] at hfilter
    simpa [((hmem node).1 hnode).2, ((hmem dependency).1 hdependency).2] using hfilter
  · change run.progress.commands = _
    rw [hbooked.commands, hbooked.rebuilt]
  · rw [hresult]
    apply hbooked.commandsRun
  · intro node hreaches
    apply (hfollows.done_iff node).2 (hpost.mem_iff.2 hreaches)
  · intro node hreaches
    rw [Marks.mark_clear]
    apply hfollows.eq_clear (mt hpost.mem_iff.1 hreaches)

theorem exists_postOrderOf_of_build_diamond :
  let run := build .touching Graph.diamond (Marks.clear Graph.diamond)
    ["app", "left", "source", "right"] Graph.diamondRoot
  run.result = .ok ⟨"app", 2, ["right", "app"]⟩ ∧
    ∃ order, Graph.diamond.PostOrderOf Graph.diamondRoot order ∧
      ["right", "app"] = (order.filter run.progress.IsStale).map Graph.diamond.name
  := by
  obtain ⟨order, hpost, -, -, -, hrebuilt, -⟩ := exists_postOrderOf_of_build result_build_diamond
  exact ⟨result_build_diamond, order, hpost, hrebuilt⟩

end IncrementalBuild
