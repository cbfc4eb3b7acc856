import IncrementalBuild.Proofs.Walk.Ledger

/-!
# The history of a node

The `story` of a node is the part of a trace that was done on it.  It begins with a look at
the file of the node, made before any of the dependencies of the node are dealt with.  Then
comes the `reason` for which the node has to be built, if there is one: its file was absent,
or a dependency, the first such, is absent or newer than the file was found.  Then, if there
is a reason, come the commands of the node and a second look at its file.

`Progress.Open` says this of a node in progress, up to the dependencies it has been compared
with, and `Progress.Closed` of a node that has been left behind.  What is done on another
node changes neither.
-/

namespace IncrementalBuild

variable {g : Graph} {World : Type}

namespace Progress

variable {env : Environment World} {p q : Progress g World} {node other : g.Id}
  {found : Option Stamp} {compared : List g.Id} {closing : List (Action g)}

/-- What has been done on a node, from the first action to the last. -/
def story (p : Progress g World) (node : g.Id) : List (Action g) :=
  p.trace.toList.filter (·.node = node)

/-- The file of a node is absent, or newer than a stamp, as far as the build has seen. -/
def isNewer (p : Progress g World) (own : Stamp) (dependency : g.Id) : Bool :=
  isOutdated (some own) (p.marks.mark dependency).modified

/-- Why a node has to be built whose file was of the time `found` when the node was entered,
and which has been compared with some of its dependencies. -/
def reason (p : Progress g World) (node : g.Id) (found : Option Stamp) (compared : List g.Id) :
    Option (Action g) :=
  match found with
  | none => some (.foundAbsent node)
  | some own => (compared.find? (p.isNewer own)).map (.foundOutdated node)

theorem isNewer_iff {own : Stamp} {dependency : g.Id} :
  p.isNewer own dependency = true ↔ (p.marks.mark dependency).modified = none ∨
    ∃ theirs, (p.marks.mark dependency).modified = some theirs ∧ own < theirs
  := by
  unfold isNewer isOutdated
  cases (p.marks.mark dependency).modified <;> simp

theorem reason_append (first second : List g.Id) :
  p.reason node found (first ++ second)
    = (p.reason node found first).or (p.reason node found second)
  := by
  cases found with
  | none => rfl
  | some own => simp [reason, List.find?_append, Option.map_or]

/-- A dependency gives the reason for which a node has to be built if none before it does. -/
theorem reason_snoc {own : Stamp} (h : p.reason node (some own) compared = none)
    (dependency : g.Id) :
  p.reason node (some own) (compared ++ [dependency])
    = if p.isNewer own dependency then some (.foundOutdated node dependency) else none
  := by
  rw [reason_append, h, Option.none_or, reason, List.find?_singleton]
  split <;> rfl

theorem isSome_reason_iff :
  (p.reason node found compared).isSome = true ↔ found = none ∨
    ∃ own, found = some own ∧ ∃ dependency ∈ compared, p.isNewer own dependency = true
  := by
  cases found with
  | none => simp [reason]
  | some own => simp [reason]

/-- A reason is not a command. -/
theorem command?_reason :
  (p.reason node found compared).toList.filterMap Action.command? = []
  := by
  cases found with
  | none => rfl
  | some own =>
    rw [reason]
    cases compared.find? (p.isNewer own) <;> rfl

theorem reason_congr
    (h : ∀ dependency ∈ compared, q.marks.mark dependency = p.marks.mark dependency) :
  q.reason node found compared = p.reason node found compared
  := by
  cases found with
  | none => rfl
  | some own =>
    have hfind : compared.find? (q.isNewer own) = compared.find? (p.isNewer own) := by
      rw [← List.head?_filter, ← List.head?_filter]
      congr 1
      apply List.filter_congr
      intro dependency hdependency
      rw [isNewer, isNewer, h dependency hdependency]
    rw [reason, reason, hfind]

/-! ### What an operation on one node leaves alone -/

/-- Nothing has been done on any node but one, and its story goes on with some actions. -/
structure Affects (node : g.Id) (added : List (Action g)) (p q : Progress g World) : Prop where
  mark : ∀ other, other ≠ node → q.marks.mark other = p.marks.mark other
  story : ∀ other, other ≠ node → q.story other = p.story other
  story_self : q.story node = p.story node ++ added

theorem affects_of_trace {added : List (Action g)}
    (hmark : ∀ other, other ≠ node → q.marks.mark other = p.marks.mark other)
    (htrace : q.trace.toList = p.trace.toList ++ added)
    (hadded : ∀ action ∈ added, action.node = node) :
  Affects node added p q
  where
  mark := hmark
  story := by
    intro other hother
    have hnone : added.filter (·.node = other) = [] := by
      rw [List.filter_eq_nil_iff]
      intro action haction
      simp [hadded action haction, Ne.symm hother]
    rw [story, htrace, List.filter_append, hnone, List.append_nil, story]
  story_self := by
    have hall : added.filter (·.node = node) = added := by
      rw [List.filter_eq_self]
      intro action haction
      simp [hadded action haction]
    rw [story, htrace, List.filter_append, hall, story]

/-- The reason of a node does not change if nothing is done on what it is compared with. -/
theorem Affects.reason {added : List (Action g)} (h : Affects other added p q)
    (hother : other ∉ compared) :
  q.reason node found compared = p.reason node found compared
  := by
  apply reason_congr
  intro dependency hdependency
  apply h.mark dependency fun heq => hother (heq ▸ hdependency)

theorem affects_of_entered (h : Entered env node found p q) :
  Affects node (.looked node (.ok found) :: (q.reason node found []).toList) p q
  := by
  have hreason : (q.reason node found []).toList
      = if found = none then [.foundAbsent node] else [] := by
    cases found <;> simp [reason]
  apply affects_of_trace
  · intro other hother
    rw [h.mark, if_neg hother]
  · rw [h.trace, hreason]
  · intro action haction
    rw [hreason] at haction
    split at haction
    · simp only [List.mem_cons, List.not_mem_nil, or_false] at haction
      rcases haction with rfl | rfl <;> rfl
    · simp only [List.mem_cons, List.not_mem_nil, or_false] at haction
      rw [haction]
      rfl

theorem affects_of_rebuilt {refreshed : Option Stamp} (h : Rebuilt env node refreshed p q) :
  Affects node ((g.commands node).map (.issued node) ++ [.looked node (.ok refreshed)]) p q
  := by
  apply affects_of_trace
  · intro other hother
    rw [h.mark, if_neg hother]
  · apply h.trace
  · intro action haction
    rcases List.mem_append.1 haction with hissued | hlooked
    · obtain ⟨command, -, rfl⟩ := List.mem_map.1 hissued
      rfl
    · rw [List.mem_singleton.1 hlooked]
      rfl

theorem affects_leave (p : Progress g World) (node : g.Id) :
  Affects node [] p (p.leave node)
  := by
  apply affects_of_trace
  · intro other hother
    rw [mark_leave, if_neg hother]
  · apply (List.append_nil _).symm
  · simp

theorem affects_compare_of_outdated {dependency : g.Id}
    (hmust : (p.marks.mark node).mustBuild = false)
    (houtdated :
      isOutdated (p.marks.mark node).modified (p.marks.mark dependency).modified = true) :
  Affects node [.foundOutdated node dependency] p (p.compare node dependency)
  := by
  apply affects_of_trace
  · intro other hother
    apply mark_compare_of_ne p node dependency hother
  · simp [compare_of_outdated p node dependency hmust houtdated, mark, record]
  · intro action haction
    rw [List.mem_singleton.1 haction]
    rfl

theorem affects_compare (p : Progress g World) (node dependency : g.Id) :
  ∃ added, Affects node added p (p.compare node dependency)
  := by
  have hnone : Affects node [] p p := by
    apply affects_of_trace (fun _ _ => rfl) (List.append_nil _).symm
    simp
  cases hmust : (p.marks.mark node).mustBuild with
  | true =>
    rw [compare_of_mustBuild p node dependency hmust]
    exact ⟨[], hnone⟩
  | false =>
    cases houtdated :
        isOutdated (p.marks.mark node).modified (p.marks.mark dependency).modified with
    | false =>
      rw [compare_of_not_outdated p node dependency hmust houtdated]
      exact ⟨[], hnone⟩
    | true => exact ⟨_, affects_compare_of_outdated hmust houtdated⟩

theorem affects_finish (h : p.finish env node = (.ok (), q)) :
  ∃ added, Affects node added p q
  := by
  cases hmust : (p.marks.mark node).mustBuild with
  | false =>
    rw [eq_leave_of_finish hmust h]
    exact ⟨_, affects_leave p node⟩
  | true =>
    obtain ⟨refreshed, hrebuilt⟩ := rebuilt_of_finish hmust h
    exact ⟨_, affects_of_rebuilt hrebuilt⟩

/-! ### The history of one node -/

/-- The file of a node was of the time `found` when the node was entered, the node has been
compared with some of its dependencies, and `closing` is what has been done on it after
that. -/
structure History (p : Progress g World) (node : g.Id) (found : Option Stamp)
    (compared : List g.Id) (closing : List (Action g)) : Prop where
  story : p.story node
    = .looked node (.ok found) :: ((p.reason node found compared).toList ++ closing)
  mustBuild : (p.marks.mark node).mustBuild = (p.reason node found compared).isSome

/-- A node is in progress and has been compared with some of its dependencies. -/
structure Open (p : Progress g World) (node : g.Id) (found : Option Stamp)
    (compared : List g.Id) : Prop extends History p node found compared [] where
  modified : (p.marks.mark node).modified = found

/-- A node has been left behind: it did not have to be built, or its commands have been run
and its file was of the time `refreshed` after that. -/
inductive Closed (p : Progress g World) (node : g.Id) (found : Option Stamp) : Prop
  | upToDate :
    History p node found (g.dependencies node) [] →
      (p.marks.mark node).mustBuild = false → (p.marks.mark node).modified = found →
      Closed p node found
  | rebuilt {refreshed : Option Stamp} :
    History p node found (g.dependencies node)
        ((g.commands node).map (.issued node) ++ [.looked node (.ok refreshed)]) →
      (p.marks.mark node).mustBuild = true →
      (p.marks.mark node).modified = refreshed.or found → Closed p node found

/-- A node has to be built if it was absent when it was entered, or if a dependency it has
been compared with is absent or newer. -/
theorem History.mustBuild_iff (h : History p node found compared closing) :
  (p.marks.mark node).mustBuild = true ↔ found = none ∨
    ∃ dependency ∈ compared, (p.marks.mark dependency).modified = none ∨
      ∃ own theirs, found = some own ∧ (p.marks.mark dependency).modified = some theirs ∧
        own < theirs
  := by
  rw [h.mustBuild, isSome_reason_iff]
  cases found with
  | none => simp
  | some own => simp [isNewer_iff]

/-- The first thing done on a node is a look at its file. -/
theorem History.exists_look {world : World} (h : History p node found compared closing)
    (hfaithful : Faithful env world p.trace.toList) :
  ∃ before after, p.trace.toList = before ++ .looked node (.ok found) :: after ∧
    (∀ action ∈ before, action.node ≠ node) ∧
    env.modified (env.after world (before.filterMap Action.command?)) (g.name node) = .ok found ∧
    after.filter (·.node = node) = (p.reason node found compared).toList ++ closing
  := by
  obtain ⟨before, after, htrace, hbefore, hafter⟩ := exists_append_of_filter_cons h.story
  exact ⟨before, after, htrace, hbefore, hfaithful before after node _ htrace, hafter⟩

/-- What is done on another node does not change a history. -/
theorem History.affected {added : List (Action g)} (h : History p node found compared closing)
    (haffects : Affects other added p q) (hnode : node ≠ other) (hcompared : other ∉ compared) :
  History q node found compared closing
  := by
  constructor
  · rw [haffects.story node hnode, haffects.reason hcompared, h.story]
  · rw [haffects.mark node hnode, haffects.reason hcompared, h.mustBuild]

theorem Open.affected {added : List (Action g)} (h : Open p node found compared)
    (haffects : Affects other added p q) (hnode : node ≠ other) (hcompared : other ∉ compared) :
  Open q node found compared
  where
  toHistory := h.toHistory.affected haffects hnode hcompared
  modified := by rw [haffects.mark node hnode, h.modified]

theorem Closed.affected {added : List (Action g)} (h : Closed p node found)
    (haffects : Affects other added p q) (hnode : node ≠ other)
    (hdependencies : ¬ g.Needs node other) :
  Closed q node found
  := by
  have hmark := haffects.mark node hnode
  cases h with
  | upToDate hhistory hmust hmodified =>
    apply Closed.upToDate (hhistory.affected haffects hnode hdependencies)
    · rw [hmark, hmust]
    · rw [hmark, hmodified]
  | rebuilt hhistory hmust hmodified =>
    apply Closed.rebuilt (hhistory.affected haffects hnode hdependencies)
    · rw [hmark, hmust]
    · rw [hmark, hmodified]

/-- The history of a node that has been entered begins. -/
theorem open_of_entered (h : Entered env node found p q)
    (hclear : p.marks.mark node = .clear) (hfresh : p.story node = []) :
  Open q node found []
  where
  story := by
    rw [(affects_of_entered h).story_self, hfresh, List.append_nil]
    rfl
  mustBuild := by
    rw [h.mark, if_pos rfl, hclear]
    cases found <;> rfl
  modified := by rw [h.mark, if_pos rfl]

/-- A dependency that gives no reason, or no new one, may be added to those a node has been
compared with. -/
theorem Open.of_reason_eq {compared' : List g.Id} (h : Open p node found compared)
    (hreason : p.reason node found compared' = p.reason node found compared) :
  Open p node found compared'
  := by
  refine ⟨⟨?_, ?_⟩, h.modified⟩
  · rw [hreason, h.story]
  · rw [hreason, h.mustBuild]

/-- A node with a newer dependency has to be built, and that is the reason. -/
theorem Open.compare_of_isNewer {own : Stamp} {dependency : g.Id}
    (h : Open p node (some own) compared) (hmust : (p.marks.mark node).mustBuild = false)
    (hnone : p.reason node (some own) compared = none) (hnewer : p.isNewer own dependency = true)
    (hnode : node ∉ compared ++ [dependency]) :
  Open (p.compare node dependency) node (some own) (compared ++ [dependency])
  := by
  have houtdated : isOutdated (p.marks.mark node).modified (p.marks.mark dependency).modified
      = true := by
    rw [h.modified]
    apply hnewer
  have haffects := affects_compare_of_outdated hmust houtdated
  have hreason : (p.compare node dependency).reason node (some own) (compared ++ [dependency])
      = some (.foundOutdated node dependency) := by
    have hsnoc := reason_snoc hnone dependency
    rw [if_pos hnewer] at hsnoc
    rw [← hsnoc, haffects.reason hnode]
  have hmark : (p.compare node dependency).marks.mark node
      = { p.marks.mark node with mustBuild := true } := by
    rw [compare_of_outdated p node dependency hmust houtdated]
    apply Marks.mark_change_self _ _ _
  refine ⟨⟨?_, ?_⟩, ?_⟩
  · rw [haffects.story_self, hreason, h.story, hnone]
    rfl
  · rw [hreason, hmark]
    rfl
  · rw [hmark, ← h.modified]

/-- A comparison with another node goes into the history of a node. -/
theorem Open.compare {dependency : g.Id} (h : Open p node found compared)
    (hnode : node ∉ compared ++ [dependency]) :
  Open (p.compare node dependency) node found (compared ++ [dependency])
  := by
  cases hreason : p.reason node found compared with
  | some action =>
    have hmust : (p.marks.mark node).mustBuild = true := by
      rw [h.mustBuild, hreason, Option.isSome]
    rw [compare_of_mustBuild p node dependency hmust]
    apply h.of_reason_eq
    rw [reason_append, hreason, Option.some_or]
  | none =>
    have hmust : (p.marks.mark node).mustBuild = false := by
      rw [h.mustBuild, hreason, Option.isSome]
    match found with
    | none => simp [reason] at hreason
    | some own =>
      cases hnewer : p.isNewer own dependency with
      | true => exact h.compare_of_isNewer hmust hreason hnewer hnode
      | false =>
        have houtdated : isOutdated (p.marks.mark node).modified
            (p.marks.mark dependency).modified = false := by
          rw [h.modified]
          apply hnewer
        rw [compare_of_not_outdated p node dependency hmust houtdated]
        apply h.of_reason_eq
        rw [reason_snoc hreason dependency, hnewer, if_neg Bool.false_ne_true, hreason]

/-- A node that has been compared with all of its dependencies is closed when it is
finished. -/
theorem Open.finish (h : Open p node found (g.dependencies node))
    (hself : ¬ g.Needs node node) (hfinish : p.finish env node = (.ok (), q)) :
  Closed q node found
  := by
  cases hmust : (p.marks.mark node).mustBuild with
  | false =>
    obtain rfl := eq_leave_of_finish hmust hfinish
    have haffects := affects_leave p node
    have hmark := mark_leave p node node
    rw [if_pos rfl] at hmark
    refine .upToDate ⟨?_, ?_⟩ ?_ ?_
    · rw [haffects.story_self, haffects.reason hself, h.story, List.append_nil]
    · rw [hmark, haffects.reason hself, ← h.mustBuild]
    · rw [hmark, ← hmust]
    · rw [hmark, ← h.modified]
  | true =>
    obtain ⟨refreshed, hrebuilt⟩ := rebuilt_of_finish hmust hfinish
    have haffects := affects_of_rebuilt hrebuilt
    have hmark := hrebuilt.mark node
    rw [if_pos rfl] at hmark
    have hhistory : History q node found (g.dependencies node)
        ((g.commands node).map (.issued node) ++ [.looked node (.ok refreshed)]) := by
      constructor
      · rw [haffects.story_self, haffects.reason hself, h.story]
        simp
      · rw [hmark, haffects.reason hself, ← h.mustBuild]
    apply Closed.rebuilt hhistory
    · rw [hmark, ← hmust]
    · rw [hmark, ← h.modified]

end Progress

end IncrementalBuild
