import IncrementalBuild.Proofs.Routine
import IncrementalBuild.Proofs.Walk.Effect
import Mathlib.Logic.Function.Basic

/-!
# The build as a recursion

`Environment.visit` brings a node up to date by recursion: it looks at the file of the node,
marks the node as in progress, visits the dependencies that are not done and weighs each of
them against the node, runs the commands of the node if it has to be built and looks at the
file again, and marks the node as done.  Its state is an `Account`: the world, the marks,
the commands that were given to be executed, the names of the nodes that were rebuilt, and
the number of commands that succeeded.

`Progress.account` is the account of what a walk has done.  The lemmas of this file say that
what a walk does on one node is what the recursion does on it.
-/

namespace IncrementalBuild

/-- What a build has done so far, as far as it can be told apart from outside. -/
structure Account (g : Graph) (World : Type) where
  world : World
  marks : g.Id → Mark
  commands : List String
  rebuilt : List String
  commandsRun : Nat

/-- The account of a build that has done nothing. -/
def Account.start {World : Type} (g : Graph) (world : World) : Account g World :=
  ⟨world, fun _ => .clear, [], [], 0⟩

variable {g : Graph} {World : Type}

namespace Recursion

/-- The time of the file of a node, if there is a file. -/
def stat (env : Environment World) (node : g.Id) :
    Routine (Account g World) (Option Stamp) := do
  match env.modified (← get).world (g.name node) with
  | .error e => throw (e.map .stat)
  | .ok found => pure found

/-- Changes the mark of a node. -/
def setMark (node : g.Id) (f : Mark → Mark) : Routine (Account g World) Unit :=
  modify fun account =>
    { account with marks := Function.update account.marks node (f (account.marks node)) }

/-- Comes to a node, which `parent?` needs: a node without a file has to be built, if it is
declared. -/
def arrive (env : Environment World) (parent? : Option g.Id) (node : g.Id) :
    Routine (Account g World) Unit := do
  let found ← stat env node
  setMark node ({ · with visit := .inProgress, modified := found })
  if found.isNone then
    if (g.node node).declared then
      setMark node ({ · with mustBuild := true })
    else
      throw (.failure (.missingPrerequisite (g.name node) ((parent?.map g.name).getD "")))

/-- A dependency without a file, or with a newer one, makes that a node has to be built. -/
def weigh (node dependency : g.Id) : Routine (Account g World) Unit := do
  let account ← get
  unless (account.marks node).mustBuild do
    match (account.marks dependency).modified, (account.marks node).modified with
    | some theirs, some own =>
      if own < theirs then setMark node ({ · with mustBuild := true })
    | _, _ => setMark node ({ · with mustBuild := true })

/-- Gives a command to be executed. -/
def give (env : Environment World) (command : String) : Routine (Account g World) Unit := do
  let account ← get
  let ended := env.execute account.world command
  set { account with world := ended.2, commands := account.commands ++ [command] }
  match ended.1 with
  | .error e => throw (.failure (.command e))
  | .ok () => modify fun account => { account with commandsRun := account.commandsRun + 1 }

/-- Looks again at the file of a node, whose commands have been run. -/
def review (env : Environment World) (node : g.Id) : Routine (Account g World) Unit := do
  modify fun account => { account with rebuilt := account.rebuilt ++ [g.name node] }
  let found ← stat env node
  if found.isSome then
    setMark node ({ · with modified := found })

/-- Runs the commands of a node in order, if it has to be built, and leaves it. -/
def depart (env : Environment World) (node : g.Id) : Routine (Account g World) Unit := do
  let account ← get
  if (account.marks node).mustBuild then
    (g.commands node).forM (give env)
    review env node
  setMark node ({ · with visit := .done })

end Recursion

/-- Brings a node up to date. -/
def Environment.visit (env : Environment World) (parent? : Option g.Id) (node : g.Id) :
    Routine (Account g World) Unit := do
  Recursion.arrive env parent? node
  (g.dependencies node).forM fun dependency => do
    unless ((← get).marks dependency).visit = .done do
      env |>.visit (some node) dependency
    Recursion.weigh node dependency
  Recursion.depart env node
partial_fixpoint

/-- Brings a root up to date, and tells what was done. -/
def Recursion.build (env : Environment World) (root : g.Id) :
    Routine (Account g World) Outcome := do
  env.visit none root
  let account ← get
  return ⟨g.name root, account.commandsRun, account.rebuilt⟩

/-! ### The account of a walk -/

namespace Progress

/-- What has been done, without the trace. -/
def account (p : Progress g World) : Account g World :=
  ⟨p.world, p.marks.mark, p.commands, p.rebuilt.toList.map g.name, p.commandsRun⟩

theorem account_record (p : Progress g World) (action : Action g) (h : action.command? = none) :
  (p.record action).account = p.account
  := by simp [account, commands, record, h]

theorem account_mark (p : Progress g World) (id : g.Id) (f : Mark → Mark) :
  (p.mark id f).account
    = { p.account with marks := Function.update p.account.marks id (f (p.account.marks id)) }
  := by
  simp only [account, mark, commands, Account.mk.injEq, and_self, and_true, true_and]
  funext other
  by_cases h : other = id
  · rw [h, Marks.mark_change_self, Function.update_self]
  · rw [Marks.mark_change_of_ne _ (Ne.symm h), Function.update_of_ne h]

/-- A change that does not change the mark of a node does not change the account. -/
theorem account_mark_self (p : Progress g World) (id : g.Id) {f : Mark → Mark}
    (h : f (p.marks.mark id) = p.marks.mark id) :
  (p.mark id f).account = p.account
  := by
  have hmarks : p.account.marks = p.marks.mark := rfl
  rw [account_mark, hmarks, h, Function.update_eq_self, ← hmarks]

end Progress

namespace Recursion

variable {env : Environment World} (p : Progress g World)

theorem runFrom_setMark (node : g.Id) (f : Mark → Mark) :
  (setMark node f).runFrom p.account = some (.ok (), (p.mark node f).account)
  := by
  rw [Progress.account_mark]
  rfl

theorem runFrom_stat_of_ok {node : g.Id} {found : Option Stamp} {account : Account g World}
    (h : env.modified account.world (g.name node) = .ok found) :
  (stat env node).runFrom account = some (.ok found, account)
  := by
  rw [stat, Routine.runFrom_get_bind, h]
  rfl

theorem runFrom_stat_of_error {node : g.Id} {e : Stop StatError} {account : Account g World}
    (h : env.modified account.world (g.name node) = .error e) :
  (stat env node).runFrom account = some (.error (e.map .stat), account)
  := by
  rw [stat, Routine.runFrom_get_bind, h]
  rfl

/-- Entering a node is arriving at it. -/
theorem runFrom_arrive (env : Environment World) (parent? : Option g.Id) (node : g.Id) :
  (arrive env parent? node).runFrom p.account
    = some ((p.enter env parent? node).1, (p.enter env parent? node).2.account)
  := by
  unfold arrive Progress.enter Progress.look
  cases hfile : env.modified p.world (g.name node) with
  | error e =>
    rw [Routine.runFrom_bind_of_error (runFrom_stat_of_error hfile),
      ← Progress.account_record p (.looked node (.error e)) rfl]
  | ok found =>
    rw [Routine.runFrom_bind_of_ok (runFrom_stat_of_ok hfile),
      ← Progress.account_record p (.looked node (.ok found)) rfl,
      Routine.runFrom_bind_of_ok (runFrom_setMark _ node _)]
    cases found with
    | some time => rfl
    | none =>
      by_cases hdeclared : (g.node node).declared = true
      · simp only [Option.isNone_none, if_true, hdeclared, Option.isSome_none, Bool.false_eq_true,
          if_false]
        rw [← Progress.account_record _ (.foundAbsent node) rfl, runFrom_setMark]
      · simp [hdeclared]

/-- A comparison is a weighing. -/
theorem runFrom_weigh (node dependency : g.Id) :
  (weigh node dependency).runFrom p.account = some (.ok (), (p.compare node dependency).account)
  := by
  have hstale : (setMark node ({ · with mustBuild := true })).runFrom p.account
      = some (.ok (), ((p.record (.foundOutdated node dependency)).mark node
          ({ · with mustBuild := true })).account) := by
    rw [← runFrom_setMark, Progress.account_record _ _ rfl]
  have hmarks : p.account.marks = p.marks.mark := rfl
  rw [weigh, Routine.runFrom_get_bind, hmarks, Progress.compare]
  by_cases hmust : (p.marks.mark node).mustBuild = true
  · rw [if_pos hmust, if_pos hmust]
    rfl
  · rw [if_neg hmust, if_neg hmust]
    unfold Progress.isOutdated
    cases htheirs : (p.marks.mark dependency).modified with
    | none => exact hstale
    | some theirs =>
      cases hown : (p.marks.mark node).modified with
      | none => exact hstale
      | some own =>
        by_cases hnewer : own < theirs
        · simp only [hnewer, if_true, decide_true]
          apply hstale
        · simp only [hnewer, if_false, decide_false, Bool.false_eq_true]
          rfl

/-- The progress of giving a command: it is recorded, and it leaves a world. -/
theorem account_issued (node : g.Id) (command : String) (world : World) (count : Nat) :
  { p.record (.issued node command) with world := world, commandsRun := count }.account
    = { p.account with
          world := world, commands := p.account.commands ++ [command], commandsRun := count }
  := by simp [Progress.account, Progress.commands, Progress.record, Action.command?]

theorem runFrom_give_of_ok (node : g.Id) {command : String} {world : World}
    (h : env.execute p.world command = (.ok (), world)) :
  (give env command).runFrom p.account
    = some (.ok (), { p.record (.issued node command) with
        world := world, commandsRun := p.commandsRun + 1 }.account)
  := by
  rw [account_issued, give, Routine.runFrom_get_bind]
  simp only [Progress.account, h, Routine.runFrom_set_bind, Routine.runFrom_modify]

theorem runFrom_give_of_error (node : g.Id) {command : String} {world : World} {e : CommandError}
    (h : env.execute p.world command = (.error e, world)) :
  (give env command).runFrom p.account
    = some (.error (.failure (.command e)), { p.record (.issued node command) with
        world := world, commandsRun := p.commandsRun }.account)
  := by
  rw [account_issued, give, Routine.runFrom_get_bind]
  simp only [Progress.account, h, Routine.runFrom_set_bind, Routine.runFrom_throw]

/-- To execute commands is to give them one by one. -/
theorem runFrom_forM_give (env : Environment World) (node : g.Id) (commands : List String) :
  (commands.forM (give env)).runFrom p.account
    = some ((p.execute env node commands).1, (p.execute env node commands).2.account)
  := by
  induction commands generalizing p with
  | nil => rfl
  | cons command rest ih =>
    change (give env command >>= fun _ => rest.forM (give env)).runFrom p.account = _
    simp only [Progress.execute]
    split
    · next e world h => exact Routine.runFrom_bind_of_error (runFrom_give_of_error p node h)
    · next world h =>
      rw [Routine.runFrom_bind_of_ok (runFrom_give_of_ok p node h)]
      apply ih _

/-- To leave a node is to mark it as done. -/
theorem runFrom_setMark_done (node : g.Id) :
  (setMark node ({ · with visit := .done })).runFrom p.account
    = some (.ok (), (p.leave node).account)
  := runFrom_setMark p node _

/-- To settle a node is to review it and to mark it as done. -/
theorem runFrom_review (node : g.Id) :
  (review env node >>= fun _ => setMark node ({ · with visit := .done })).runFrom p.account
    = some ((p.settle env node).1, (p.settle env node).2.account)
  := by
  have hrebuilt : { p.account with rebuilt := p.account.rebuilt ++ [g.name node] }
      = { p with rebuilt := p.rebuilt.push node }.account := by
    simp [Progress.account, Progress.commands]
  rw [review, bind_assoc, Routine.runFrom_modify_bind, hrebuilt, bind_assoc]
  cases hfile : env.modified p.world (g.name node) with
  | error e =>
    rw [Routine.runFrom_bind_of_error (runFrom_stat_of_error hfile), Progress.settle_of_error hfile,
      Progress.account_record _ _ rfl]
  | ok found =>
    rw [Routine.runFrom_bind_of_ok (runFrom_stat_of_ok hfile), Progress.settle_of_ok hfile,
      ← Progress.account_record _ (.looked node (.ok found)) rfl]
    cases found with
    | none =>
      -- the mark stays as it is, and the recursion does not touch it
      rw [← Progress.account_mark_self _ node (f := fun mark =>
        { mark with modified := Option.or none mark.modified }) rfl]
      apply runFrom_setMark_done _ node
    | some time =>
      rw [Option.isSome_some, if_pos rfl, Routine.runFrom_bind_of_ok (runFrom_setMark _ node _)]
      apply runFrom_setMark_done _ node

/-- To finish a node is to depart from it. -/
theorem runFrom_depart (env : Environment World) (node : g.Id) :
  (depart env node).runFrom p.account
    = some ((p.finish env node).1, (p.finish env node).2.account)
  := by
  have hmarks : p.account.marks = p.marks.mark := rfl
  rw [depart, Routine.runFrom_get_bind, hmarks, Progress.finish, Graph.commands]
  by_cases hmust : (p.marks.mark node).mustBuild = true
  · rw [if_pos hmust, if_pos hmust]
    have hgive := runFrom_forM_give p env node (g.node node).commands.toList
    split
    · next e q hexecute =>
      rw [hexecute] at hgive
      apply Routine.runFrom_bind_of_error hgive
    · next q hexecute =>
      rw [hexecute] at hgive
      rw [Routine.runFrom_bind_of_ok hgive]
      apply runFrom_review q node
  · rw [if_neg hmust, if_neg hmust]
    apply runFrom_setMark_done p node

end Recursion

end IncrementalBuild
