import IncrementalBuild.Build.Run
import IncrementalBuild.Proofs.Trace

/-!
# What a walk does on one node

Each operation of a walk on a node is described by what it does to the progress: the world,
the trace, the nodes rebuilt, the number of commands run, and the marks.  `Entered`
describes a node that has been entered, and `Rebuilt` one whose commands have been run and
whose file has been looked at again.
-/

namespace IncrementalBuild

/-- The commands of a node, in the order in which they were added. -/
def Graph.commands (g : Graph) (node : g.Id) : List String :=
  (g.node node).commands.toList

theorem Marks.mark_change {g : Graph} (marks : Marks g) (id other : g.Id) (f : Mark → Mark) :
  (marks.change id f).mark other = if other = id then f (marks.mark id) else marks.mark other
  := by
  by_cases h : other = id
  · rw [h, mark_change_self, if_pos rfl]
  · rw [mark_change_of_ne marks (Ne.symm h), if_neg h]

@[simp]
theorem Marks.mark_clear {g : Graph} (id : g.Id) :
  (Marks.clear g).mark id = .clear
  := by simp [clear, mark]

namespace Progress

variable {g : Graph} {World : Type} {env : Environment World}

/-! ### Entering a node -/

/-- A node has been entered, and `found` is the time of its file. -/
structure Entered (env : Environment World) (node : g.Id) (found : Option Stamp)
    (p q : Progress g World) : Prop where
  file : env.modified p.world (g.name node) = .ok found
  declared : found = none → (g.node node).declared = true
  world : q.world = p.world
  rebuilt : q.rebuilt = p.rebuilt
  commandsRun : q.commandsRun = p.commandsRun
  trace : q.trace.toList = p.trace.toList ++
    .looked node (.ok found) :: if found = none then [.foundAbsent node] else []
  mark : ∀ other, q.marks.mark other =
    if other = node then
      ⟨.inProgress, (p.marks.mark node).mustBuild || found.isNone, found⟩
    else
      p.marks.mark other

theorem entered_of_enter {parent? : Option g.Id} {node : g.Id} {p q : Progress g World}
    (h : p.enter env parent? node = (.ok (), q)) :
  ∃ found, Entered env node found p q
  := by
  unfold enter look at h
  cases hfile : env.modified p.world (g.name node) with
  | error e => simp [hfile] at h
  | ok found =>
    use found
    rw [hfile] at h
    cases found with
    | some time =>
      cases h
      constructor <;> simp [hfile, mark, record, Marks.mark_change]
    | none =>
      by_cases hdeclared : (g.node node).declared = true
      · simp only [Option.isSome_none, Bool.false_eq_true, if_false, hdeclared, if_true] at h
        cases h
        constructor <;> simp [hfile, hdeclared, mark, record, Marks.mark_change]
        intro other
        split <;> rfl
      · simp [hdeclared] at h

/-- No command is given when a node is entered. -/
theorem Entered.commands {node : g.Id} {found : Option Stamp} {p q : Progress g World}
    (h : Entered env node found p q) :
  q.commands = p.commands
  := by
  rw [Progress.commands, h.trace]
  split <;> simp [Progress.commands, Action.command?]

/-! ### Comparing a node with a dependency -/

section

variable (p : Progress g World) (node dependency : g.Id)

theorem compare_of_mustBuild (h : (p.marks.mark node).mustBuild = true) :
  p.compare node dependency = p
  := by rw [compare, if_pos h]

theorem compare_of_outdated (h : (p.marks.mark node).mustBuild = false)
    (houtdated :
      isOutdated (p.marks.mark node).modified (p.marks.mark dependency).modified = true) :
  p.compare node dependency
    = (p.record (.foundOutdated node dependency)).mark node ({ · with mustBuild := true })
  := by simp [compare, h, houtdated]

theorem compare_of_not_outdated (h : (p.marks.mark node).mustBuild = false)
    (houtdated :
      isOutdated (p.marks.mark node).modified (p.marks.mark dependency).modified = false) :
  p.compare node dependency = p
  := by simp [compare, h, houtdated]

@[simp]
theorem world_compare :
  (p.compare node dependency).world = p.world
  := by
  unfold compare
  split
  · rfl
  · split <;> rfl

@[simp]
theorem rebuilt_compare :
  (p.compare node dependency).rebuilt = p.rebuilt
  := by
  unfold compare
  split
  · rfl
  · split <;> rfl

@[simp]
theorem commandsRun_compare :
  (p.compare node dependency).commandsRun = p.commandsRun
  := by
  unfold compare
  split
  · rfl
  · split <;> rfl

@[simp]
theorem commands_compare :
  (p.compare node dependency).commands = p.commands
  := by
  unfold compare
  split
  · rfl
  · split
    · simp [commands, mark, record, Action.command?]
    · rfl

/-- A comparison does not change what has been seen of a file. -/
theorem modified_compare (other : g.Id) :
  ((p.compare node dependency).marks.mark other).modified = (p.marks.mark other).modified
  := by
  unfold compare
  split
  · rfl
  · split
    · rw [marks_mark, Marks.mark_change, marks_record]
      split
      · next heq => rw [heq]
      · rfl
    · rfl

theorem mark_compare_of_ne {other : g.Id} (h : other ≠ node) :
  (p.compare node dependency).marks.mark other = p.marks.mark other
  := by
  unfold compare
  split
  · rfl
  · split
    · apply Marks.mark_change_of_ne _ (Ne.symm h) _
    · rfl

end

/-! ### Finishing a node -/

theorem mark_leave (p : Progress g World) (node other : g.Id) :
  (p.leave node).marks.mark other
    = if other = node then { p.marks.mark node with visit := .done } else p.marks.mark other
  := Marks.mark_change _ _ _ _

/-- What has been done once all of some commands of a node have succeeded. -/
theorem execute_of_ok {node : g.Id} {commands : List String} {p q : Progress g World}
    (h : execute env node commands p = (.ok (), q)) :
  q.marks = p.marks ∧ q.rebuilt = p.rebuilt ∧ q.world = env.after p.world commands ∧
    q.commandsRun = p.commandsRun + commands.length ∧
    q.trace.toList = p.trace.toList ++ commands.map (.issued node)
  := by
  induction commands generalizing p with
  | nil =>
    cases h
    simp [Environment.after]
  | cons command rest ih =>
    simp only [execute] at h
    split at h
    · simp at h
    · next world hexecute =>
      obtain ⟨hmarks, hrebuilt, hworld, hcount, htrace⟩ := ih h
      refine ⟨hmarks, hrebuilt, ?_, ?_, ?_⟩
      · have hstep : env.execute p.world command = (.ok (), world) := hexecute
        simpa [Environment.after, hstep] using hworld
      · simp only [hcount, record, List.length_cons]
        omega
      · simp [htrace, record]

theorem settle_of_ok {node : g.Id} {p : Progress g World} {found : Option Stamp}
    (h : env.modified p.world (g.name node) = .ok found) :
  p.settle env node
    = (.ok (), ((({ p with rebuilt := p.rebuilt.push node }).record
        (.looked node (.ok found))).mark node
          fun mark => { mark with modified := found.or mark.modified }).leave node)
  := by simp only [settle, look, h]

theorem settle_of_error {node : g.Id} {p : Progress g World} {e : Stop StatError}
    (h : env.modified p.world (g.name node) = .error e) :
  p.settle env node
    = (.error (e.map .stat),
        ({ p with rebuilt := p.rebuilt.push node }).record (.looked node (.error e)))
  := by simp only [settle, look, h]

/-- The commands of a node have been run, and `refreshed` is the time of its file after
that. -/
structure Rebuilt (env : Environment World) (node : g.Id) (refreshed : Option Stamp)
    (p q : Progress g World) : Prop where
  world : q.world = env.after p.world (g.commands node)
  file : env.modified q.world (g.name node) = .ok refreshed
  rebuilt : q.rebuilt.toList = p.rebuilt.toList ++ [node]
  commandsRun : q.commandsRun = p.commandsRun + (g.commands node).length
  trace : q.trace.toList = p.trace.toList ++
    ((g.commands node).map (.issued node) ++ [.looked node (.ok refreshed)])
  mark : ∀ other, q.marks.mark other =
    if other = node then
      ⟨.done, (p.marks.mark node).mustBuild, refreshed.or (p.marks.mark node).modified⟩
    else
      p.marks.mark other

/-- The commands of a node are given when it is rebuilt. -/
theorem Rebuilt.commands {node : g.Id} {refreshed : Option Stamp} {p q : Progress g World}
    (h : Rebuilt env node refreshed p q) :
  q.commands = p.commands ++ g.commands node
  := by
  rw [Progress.commands, h.trace, List.filterMap_append, List.filterMap_append, filterMap_issued]
  simp [Progress.commands, Action.command?]

theorem rebuilt_of_finish {node : g.Id} {p q : Progress g World}
    (hmust : (p.marks.mark node).mustBuild = true) (h : p.finish env node = (.ok (), q)) :
  ∃ refreshed, Rebuilt env node refreshed p q
  := by
  unfold finish at h
  rw [if_pos hmust] at h
  split at h
  · simp at h
  · next mid hexecute =>
    obtain ⟨hmarks, hrebuilt, hworld, hcount, htrace⟩ := execute_of_ok hexecute
    cases hfile : env.modified mid.world (g.name node) with
    | error e => simp [settle_of_error hfile] at h
    | ok refreshed =>
      use refreshed
      rw [settle_of_ok hfile] at h
      cases h
      constructor
      · apply hworld
      · apply hfile
      · simp [leave, mark, record, hrebuilt]
      · apply hcount
      · simp [leave, mark, record, htrace, Graph.commands]
      · intro other
        rw [mark_leave]
        simp only [mark, record, hmarks, Marks.mark_change]
        split <;> rfl

theorem eq_leave_of_finish {node : g.Id} {p q : Progress g World}
    (hmust : (p.marks.mark node).mustBuild = false) (h : p.finish env node = (.ok (), q)) :
  q = p.leave node
  := by
  unfold finish at h
  simp only [hmust, Bool.false_eq_true, if_false, Prod.mk.injEq, true_and] at h
  apply h.symm

/-- A node that has been finished is done, and other nodes are not affected. -/
theorem mark_finish_of_ne {node other : g.Id} {p q : Progress g World}
    (h : p.finish env node = (.ok (), q)) (hother : other ≠ node) :
  q.marks.mark other = p.marks.mark other
  := by
  cases hmust : (p.marks.mark node).mustBuild with
  | false => rw [eq_leave_of_finish hmust h, mark_leave, if_neg hother]
  | true =>
    obtain ⟨refreshed, hrebuilt⟩ := rebuilt_of_finish hmust h
    rw [hrebuilt.mark, if_neg hother]

theorem visit_finish_self {node : g.Id} {p q : Progress g World}
    (h : p.finish env node = (.ok (), q)) :
  (q.marks.mark node).visit = .done
  := by
  cases hmust : (p.marks.mark node).mustBuild with
  | false => rw [eq_leave_of_finish hmust h, mark_leave, if_pos rfl]
  | true =>
    obtain ⟨refreshed, hrebuilt⟩ := rebuilt_of_finish hmust h
    rw [hrebuilt.mark, if_pos rfl]

end Progress

end IncrementalBuild
