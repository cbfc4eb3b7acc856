import IncrementalBuild.Build.Progress
import IncrementalBuild.Proofs.Graph.PostOrder

/-!
# Worlds and traces

`Environment.after` is the world that commands lead to, one after the other.  A trace is
`Faithful` if every look at a file found what was there, in the world that the commands
before it had led to.  `Environment.touching` is an environment in which a command makes
the file of its name, so that builds can be tried out, `Environment.refusing` one in which a
command fails, and `Environment.renewing` one in which all files are there from the start.
-/

namespace IncrementalBuild

/-- The world that commands lead to, one after the other, whether they succeed or not. -/
def Environment.after {World : Type} (env : Environment World) (world : World)
    (commands : List String) : World :=
  commands.foldl (fun world command => (env.execute world command).2) world

theorem Environment.after_append {World : Type} (env : Environment World) (world : World)
    (first second : List String) :
  env.after world (first ++ second) = env.after (env.after world first) second
  := List.foldl_append

theorem Environment.after_snoc {World : Type} (env : Environment World) (world : World)
    (commands : List String) (command : String) :
  env.after world (commands ++ [command]) = (env.execute (env.after world commands) command).2
  := env.after_append world commands [command]

/-- The stamp of some nanoseconds after the beginning of 1970. -/
def Stamp.tick (nanos : Nat) : Stamp :=
  { epoch with nanos := nanos % nanosPerSecond, nanos_lt := Nat.mod_lt _ (by decide) }

/-- A world is the list of its files, the newest first, and a command makes the file that
has its name. -/
def Environment.touching : Environment (List String) where
  modified files name :=
    .ok (if name ∈ files then some (.tick (files.length - files.idxOf name)) else none)
  execute files command := (.ok (), command :: files)

/-- The same, but that one command fails and makes nothing. -/
def Environment.refusing (refused : String) : Environment (List String) where
  modified := touching.modified
  execute files command :=
    if command = refused then
      (.error (.failed command (some 1)), files)
    else
      touching.execute files command

/-- Every name has a file.  A world is the list of those that are new, and a command makes
the file of its name new. -/
def Environment.renewing : Environment (List String) where
  modified new name := .ok (some (.tick (if name ∈ new then 1 else 0)))
  execute new command := (.ok (), command :: new)

variable {g : Graph} {World : Type}

/-- The node that an action is done on. -/
def Action.node : Action g → g.Id
  | looked node _ | foundAbsent node | foundOutdated node _ | issued node _ => node

/-- The commands that were given to be executed, from the first to the last. -/
def Progress.commands (p : Progress g World) : List String :=
  p.trace.toList.filterMap Action.command?

theorem filterMap_issued (node : g.Id) (commands : List String) :
  (commands.map (.issued node)).filterMap Action.command? = commands
  := by simp [List.filterMap_map, Function.comp_def, Action.command?]

/-- What is told of the actions of a trace, as far as it is about a node, is told of the actions on
the node. -/
theorem filter_filterMap_of_node {α : Type} {tell : Action g → Option α} {about : α → Bool}
    {node : g.Id} (trace : List (Action g))
    (h : ∀ action told, tell action = some told → (about told = true ↔ action.node = node)) :
  (trace.filterMap tell).filter about = (trace.filter (·.node = node)).filterMap tell
  := by
  rw [List.filter_filterMap, List.filterMap_filter]
  apply List.filterMap_congr
  intro action _
  cases htell : tell action with
  | none => simp
  | some told =>
    have habout := h action told htell
    by_cases hnode : action.node = node
    · simp [Option.filter, habout.2 hnode, hnode]
    · simp [Option.filter, mt habout.1 hnode, hnode]

/-- What was done first on a node. -/
theorem exists_append_of_filter_cons {trace later : List (Action g)} {node : g.Id}
    {action : Action g} (h : trace.filter (·.node = node) = action :: later) :
  ∃ before after, trace = before ++ action :: after ∧ (∀ other ∈ before, other.node ≠ node) ∧
    after.filter (·.node = node) = later
  := by
  obtain ⟨before, after, hsplit, hbefore, -, hafter⟩ := List.filter_eq_cons_iff.1 h
  exact ⟨before, after, hsplit, by simpa using hbefore, hafter⟩

/-- What was done last on a node. -/
theorem exists_append_of_filter_snoc {trace earlier : List (Action g)} {node : g.Id}
    {action : Action g} (h : trace.filter (·.node = node) = earlier ++ [action]) :
  ∃ before after, trace = before ++ action :: after ∧ before.filter (·.node = node) = earlier ∧
    ∀ other ∈ after, other.node ≠ node
  := by
  obtain ⟨first, second, rfl, hfirst, hsecond⟩ := List.filter_eq_append_iff.1 h
  obtain ⟨before, after, rfl, hbefore, hafter⟩ := exists_append_of_filter_cons hsecond
  refine ⟨first ++ before, after, by rw [List.append_assoc], ?_, ?_⟩
  · have hnone : before.filter (·.node = node) = [] := by
      rw [List.filter_eq_nil_iff]
      simpa using hbefore
    rw [List.filter_append, hfirst, hnone, List.append_nil]
  · simpa [List.filter_eq_nil_iff] using hafter

/-- Every look of a trace at the file of a node found what was there, in the world that the
commands before it had led to. -/
def Faithful (env : Environment World) (world : World) (trace : List (Action g)) : Prop :=
  ∀ (before after : List (Action g)) (node : g.Id) (found : Except (Stop StatError) (Option Stamp)),
    trace = before ++ .looked node found :: after →
    env.modified (env.after world (before.filterMap Action.command?)) (g.name node) = found

namespace Faithful

variable {env : Environment World} {world : World} {trace : List (Action g)}

theorem nil :
  Faithful env world ([] : List (Action g))
  := by
  intro before after node found hsplit
  simp at hsplit

/-- A trace may be continued by an action, if that is a look only by one that finds what is
there. -/
theorem snoc (h : Faithful env world trace) (action : Action g)
    (haction : ∀ node found, action = .looked node found →
      env.modified (env.after world (trace.filterMap Action.command?)) (g.name node) = found) :
  Faithful env world (trace ++ [action])
  := by
  intro before after node found hsplit
  rcases eq_or_exists_of_snoc_eq_append_cons hsplit with ⟨rfl, rfl⟩ | ⟨rest, hrest⟩
  · apply haction node found rfl
  · apply h before rest node found hrest

theorem append_issued (h : Faithful env world trace) (node : g.Id) (commands : List String) :
  Faithful env world (trace ++ commands.map (.issued node))
  := by
  induction commands generalizing trace with
  | nil => simpa using h
  | cons command rest ih =>
    rw [List.map_cons, List.append_cons]
    apply ih (h.snoc (.issued node command) (by simp))

end Faithful

end IncrementalBuild
