import IncrementalBuild.Proofs.Walk.LastLook

/-!
# What is reported of a rebuilt node

A build reports why a node has to be built: because its file is absent, or because of a
dependency that is absent or newer.  The first is reported when the node is entered, the second
on the way up, when the dependency has been dealt with; so the reports come in an order
different from the one in which the nodes are rebuilt.  Still, for each node that is rebuilt
there is exactly one of them, and there is none for any other node.

The reports on a node are those of its story, and the story of a node that has been left behind
gives at most one reason.
-/

namespace IncrementalBuild

/-- The name of which a report says that it has to be built. -/
def Event.stale? : Event → Option String
  | absent name | outdated name _ => some name
  | parsed .. | unmet .. | upToDate .. | finished .. => none

variable {g : Graph} {World : Type}

/-- What is reported of an action says that the node has to be built that it is done on. -/
theorem Action.stale?_of_event? {action : Action g} {event : Event}
    (h : action.event? = some event) :
  event.stale? = some (g.name action.node) ∧ event.level = .debug
  := by
  cases action with
  | looked | issued => simp [event?] at h
  | foundAbsent | foundOutdated =>
    cases h
    exact ⟨rfl, rfl⟩

/-- The reports on a node are those of what is done on it. -/
theorem filter_stale?_events (trace : List (Action g)) (node : g.Id) :
  (trace.filterMap Action.event?).filter (·.stale? = some (g.name node))
    = (trace.filter (·.node = node)).filterMap Action.event?
  := by
  apply filter_filterMap_of_node
  intro action event hevent
  rw [(Action.stale?_of_event? hevent).1, decide_eq_true_iff, Option.some_inj,
    g.name_injective.eq_iff]

namespace Progress

variable {env : Environment World} {p : Progress g World} {node : g.Id} {found : Option Stamp}

/-- A node whose file is of the time `own` is out of date beside a dependency: no time is
recorded for the dependency, or a later one. -/
def Outdates (p : Progress g World) (own : Stamp) (dependency : g.Id) : Prop :=
  (p.marks.mark dependency).modified = none ∨
    ∃ theirs, (p.marks.mark dependency).modified = some theirs ∧ own < theirs

/-- A report tells why a node has to be built whose file was of the time `found` when it was
first looked at: it was absent, or it is out of date beside a dependency and beside none that
comes before that. -/
inductive Explains (p : Progress g World) (node : g.Id) : Option Stamp → Event → Prop
  | absent : Explains p node none (.absent (g.name node))
  | outdated {own : Stamp} {dependency : g.Id} {earlier later : List g.Id} :
    g.dependencies node = earlier ++ dependency :: later →
      p.Outdates own dependency → (∀ other ∈ earlier, ¬ p.Outdates own other) →
      Explains p node (some own) (.outdated (g.name node) (g.name dependency))

/-- The words of a report are those for an absent file, or those for one that is out of date. -/
theorem Explains.message_eq {event : Event} (h : p.Explains node found event) :
  event.message
    = if found = none then "target missing on disk" else "dependency is newer or missing"
  := by cases h <;> rfl

/-- The reason for which a node has to be built is reported. -/
theorem explains_of_reason {action : Action g}
    (h : p.reason node found (g.dependencies node) = some action) :
  ∃ event, action.event? = some event ∧ p.Explains node found event
  := by
  cases found with
  | none =>
    cases h
    exact ⟨_, rfl, .absent⟩
  | some own =>
    obtain ⟨dependency, hfind, rfl⟩ := Option.map_eq_some_iff.1 h
    obtain ⟨hnewer, earlier, later, hsplit, hearlier⟩ := List.find?_eq_some_iff_append.1 hfind
    refine ⟨_, rfl, .outdated hsplit (isNewer_iff.1 hnewer) ?_⟩
    intro other hother houtdates
    simpa [isNewer_iff.2 houtdates] using hearlier other hother

/-- A node that has been left behind had to be built if there was a reason. -/
theorem Closed.mustBuild (h : p.Closed node found) :
  (p.marks.mark node).mustBuild = (p.reason node found (g.dependencies node)).isSome
  := by
  cases h with
  | upToDate hhistory | rebuilt hhistory => exact hhistory.mustBuild

/-- Nothing is reported of a node that has been left behind but the reason for which it had to
be built. -/
theorem Closed.events (h : p.Closed node found) :
  (p.story node).filterMap Action.event?
    = (p.reason node found (g.dependencies node)).toList.filterMap Action.event?
  := by
  have hlooked (seen : Option Stamp) : (Action.looked node (.ok seen)).event? = none := rfl
  have hissued : ((g.commands node).map (.issued node)).filterMap Action.event? = [] := by
    simp [List.filterMap_map, Function.comp_def, Action.event?]
  cases h with
  | upToDate hhistory => rw [hhistory.story, List.filterMap_cons_none (hlooked _), List.append_nil]
  | rebuilt hhistory =>
    rw [hhistory.story, List.filterMap_cons_none (hlooked _), List.filterMap_append,
      List.filterMap_append, hissued, List.nil_append, List.filterMap_cons_none (hlooked _),
      List.filterMap_nil, List.append_nil]

end Progress

variable {env : Environment World} {world : World} {root node : g.Id} {outcome : Outcome}

/-- The last report of a build that succeeds is about its outcome, and the others are about what
was done. -/
theorem events_of_build (hok : (build env g (Marks.clear g) world root).result = .ok outcome) :
  (build env g (Marks.clear g) world root).events
    = (build env g (Marks.clear g) world root).progress.trace.toList.filterMap Action.event?
      ++ [if outcome.commandsRun = 0 then .upToDate (g.name root)
          else .finished (g.name root) outcome.commandsRun]
  := by
  have hsurvey := survey_of_build hok
  cases hwalk : walk env g root (Progress.start (Marks.clear g) world) with
  | mk result p =>
    cases result with
    | error e => simp [(build_of_walk_error hsurvey hwalk).1] at hok
    | ok =>
      obtain ⟨hresult, hprogress⟩ := build_of_walk_ok hsurvey hwalk
      rw [hresult] at hok
      cases hok
      rw [hprogress]
      simp [build, hsurvey, hwalk, Mark.clear, Outcome.event, Outcome.isUpToDate]

/-- The words of the last report, and how much it matters. -/
theorem level_and_message_of_last (name : String) (commands : Nat) :
  let last : Event := if commands = 0 then .upToDate name else .finished name commands
  last.level = .info ∧ last.message = if commands = 0 then "up to date" else "build finished"
  := by
  by_cases hnone : commands = 0
  · rw [if_pos hnone, if_pos hnone]
    exact ⟨rfl, rfl⟩
  · rw [if_neg hnone, if_neg hnone]
    exact ⟨rfl, rfl⟩

/-- What a successful build reports of a node is what it has done on it. -/
theorem filter_events_of_build
    (hok : (build env g (Marks.clear g) world root).result = .ok outcome) (node : g.Id) :
  (build env g (Marks.clear g) world root).events.filter (·.stale? = some (g.name node))
    = ((build env g (Marks.clear g) world root).progress.story node).filterMap Action.event?
  := by
  rw [events_of_build hok, List.filter_append, filter_stale?_events, Progress.story]
  -- the last report does not say of any name that it has to be built
  split <;> simp [Event.stale?]

/-- A report that a name has to be built is about a node of that name. -/
theorem exists_node_of_mem_events
    (hok : (build env g (Marks.clear g) world root).result = .ok outcome) {event : Event}
    {name : String} (hevent : event ∈ (build env g (Marks.clear g) world root).events)
    (hstale : event.stale? = some name) :
  ∃ node, g.name node = name
  := by
  rw [events_of_build hok] at hevent
  rcases List.mem_append.1 hevent with hmem | hlast
  · obtain ⟨action, -, hreport⟩ := List.mem_filterMap.1 hmem
    rw [(Action.stale?_of_event? hreport).1, Option.some_inj] at hstale
    exact ⟨action.node, hstale⟩
  · rw [List.mem_singleton.1 hlast] at hstale
    split at hstale <;> simp [Event.stale?] at hstale

/-- Nothing is done on a node that the root does not reach. -/
theorem story_of_not_reaches
    (hok : (build env g (Marks.clear g) world root).result = .ok outcome)
    (hreaches : ¬ g.Reaches root node) :
  (build env g (Marks.clear g) world root).progress.story node = []
  := by
  obtain ⟨order, hpost, -⟩ := exists_postOrderOf_of_survey (survey_of_build hok)
  obtain ⟨hfollows, hhistories, -⟩ :=
    (Walk.kept_histories env order).of_build hpost (fun _ => Walk.histories_of_enter_start) hok
  apply hhistories.untouched
  rw [hfollows.eq_clear (mt hpost.mem_iff.1 hreaches)]
  rfl

/-- The names that a successful build has rebuilt are those of the nodes it has reached that had
to be built. -/
theorem name_mem_rebuilt_iff
    (hok : (build env g (Marks.clear g) world root).result = .ok outcome) {name : String} :
  name ∈ outcome.rebuilt ↔ ∃ node, g.name node = name ∧ g.Reaches root node ∧
    ((build env g (Marks.clear g) world root).progress.marks.mark node).mustBuild = true
  := by
  obtain ⟨order, hpost, -⟩ := exists_postOrderOf_of_survey (survey_of_build hok)
  obtain ⟨-, hbooked, rfl⟩ := booked_of_build hpost hok
  simp only [hbooked.rebuilt, List.mem_map, List.mem_filter, hpost.mem_iff, Progress.IsStale]
  constructor
  · rintro ⟨node, ⟨hreaches, hmust⟩, hname⟩
    exact ⟨node, hname, hreaches, hmust⟩
  · rintro ⟨node, hname, hreaches, hmust⟩
    exact ⟨node, ⟨hreaches, hmust⟩, hname⟩

/-- A node that had to be built is reported once, with the reason. -/
theorem exists_report_of_mustBuild
    (hok : (build env g (Marks.clear g) world root).result = .ok outcome)
    (hreaches : g.Reaches root node)
    (hmust : ((build env g (Marks.clear g) world root).progress.marks.mark node).mustBuild
      = true) :
  let progress := (build env g (Marks.clear g) world root).progress
  ∃ found event, progress.FirstLook env world node found ∧
    (progress.story node).filterMap Action.event? = [event] ∧ progress.Explains node found event
  := by
  intro progress
  obtain ⟨order, hpost, -⟩ := exists_postOrderOf_of_survey (survey_of_build hok)
  obtain ⟨-, hbooked, -⟩ := booked_of_build hpost hok
  obtain ⟨found, hclosed⟩ := closed_of_build hok hreaches
  obtain ⟨-, hfirst, -⟩ := hclosed.looks hbooked.faithful
  rw [hclosed.mustBuild] at hmust
  obtain ⟨action, hreason⟩ := Option.isSome_iff_exists.1 hmust
  obtain ⟨event, hevent, hexplains⟩ := Progress.explains_of_reason hreason
  refine ⟨found, event, hfirst, ?_, hexplains⟩
  rw [hclosed.events, hreason, Option.toList_some, List.filterMap_cons_some hevent,
    List.filterMap_nil]

/-- A node that did not have to be built is not reported. -/
theorem filterMap_event?_story_eq_nil
    (hok : (build env g (Marks.clear g) world root).result = .ok outcome)
    (hnode : g.name node ∉ outcome.rebuilt) :
  ((build env g (Marks.clear g) world root).progress.story node).filterMap Action.event? = []
  := by
  by_cases hreaches : g.Reaches root node
  · obtain ⟨found, hclosed⟩ := closed_of_build hok hreaches
    have hmust : ((build env g (Marks.clear g) world root).progress.marks.mark node).mustBuild
        ≠ true :=
      fun hmust => hnode ((name_mem_rebuilt_iff hok).2 ⟨node, rfl, hreaches, hmust⟩)
    rw [hclosed.mustBuild, ne_eq, Option.not_isSome_iff_eq_none] at hmust
    rw [hclosed.events, hmust]
    rfl
  · rw [story_of_not_reaches hok hreaches]
    rfl

/-- A build from clear marks that succeeds makes, for each name it has rebuilt, exactly one
report that it has to be built, and for other names none.  The report says that the file was
absent if it was when the walk first looked at it, and otherwise names the first dependency
that is absent or newer than the file was at that look.  The last report says that nothing had
to be done, or how many commands were run.  It is for information, and all others are for
debugging. -/
theorem reports_of_build (hok : (build env g (Marks.clear g) world root).result = .ok outcome) :
  let run := build env g (Marks.clear g) world root
  (∀ name ∈ outcome.rebuilt, ∃ node found event, g.name node = name ∧ g.Reaches root node ∧
      run.progress.FirstLook env world node found ∧
      run.events.filter (·.stale? = some name) = [event] ∧
      run.progress.Explains node found event ∧
      event.message
        = if found = none then "target missing on disk" else "dependency is newer or missing") ∧
    (∀ name, name ∉ outcome.rebuilt → run.events.filter (·.stale? = some name) = []) ∧
    ∃ reports last, run.events = reports ++ [last] ∧
      last = (if outcome.commandsRun = 0 then .upToDate (g.name root)
        else .finished (g.name root) outcome.commandsRun) ∧
      last.message = (if outcome.commandsRun = 0 then "up to date" else "build finished") ∧
      last.level = .info ∧ ∀ report ∈ reports, report.level = .debug
  := by
  intro run
  have hevents := events_of_build hok
  obtain ⟨hlevel, hmessage⟩ := level_and_message_of_last (g.name root) outcome.commandsRun
  refine ⟨?_, ?_, _, _, hevents, rfl, hmessage, hlevel, ?_⟩
  · intro name hname
    obtain ⟨node, rfl, hreaches, hmust⟩ := (name_mem_rebuilt_iff hok).1 hname
    obtain ⟨found, event, hfirst, hreport, hexplains⟩ :=
      exists_report_of_mustBuild hok hreaches hmust
    refine ⟨node, found, event, rfl, hreaches, hfirst, ?_, hexplains, hexplains.message_eq⟩
    rw [filter_events_of_build hok, hreport]
  · intro name hname
    rw [List.filter_eq_nil_iff]
    intro event hevent hstale
    obtain ⟨node, rfl⟩ := exists_node_of_mem_events hok hevent (of_decide_eq_true hstale)
    have hnone : run.events.filter (·.stale? = some (g.name node)) = [] := by
      rw [filter_events_of_build hok, filterMap_event?_story_eq_nil hok hname]
    exact List.filter_eq_nil_iff.1 hnone event hevent hstale
  · intro report hreport
    obtain ⟨action, -, hevent⟩ := List.mem_filterMap.1 hreport
    exact (Action.stale?_of_event? hevent).2

/-- In `diamond` the right part is rebuilt because its source is newer, and then the program
because the right part is; of the left part nothing is reported. -/
theorem reports_of_build_diamond :
  let world := ["app", "left", "source", "right"]
  let run := build .touching Graph.diamond (Marks.clear Graph.diamond) world Graph.diamondRoot
  run.result = .ok ⟨"app", 2, ["right", "app"]⟩ ∧
    (∃ node found event, Graph.diamond.name node = "app" ∧
      run.progress.FirstLook .touching world node found ∧
      run.events.filter (·.stale? = some "app") = [event] ∧
      run.progress.Explains node found event) ∧
    run.events.filter (·.stale? = some "left") = [] ∧
    ∃ reports, run.events = reports ++ [.finished "app" 2] ∧
      (Event.finished "app" 2).message = "build finished" ∧
      (Event.finished "app" 2).level = .info ∧ ∀ report ∈ reports, report.level = .debug
  := by
  obtain ⟨hrebuilt, hother, reports, last, hreports, rfl, hmessage, hlevel, hdebug⟩ :=
    reports_of_build result_build_diamond
  obtain ⟨node, found, event, hname, -, hfirst, hevent, hexplains, -⟩ :=
    hrebuilt "app" (by decide)
  exact ⟨result_build_diamond, ⟨node, found, event, hname, hfirst, hevent, hexplains⟩,
    hother "left" (by decide), reports, hreports, hmessage, hlevel, hdebug⟩

end IncrementalBuild
