import IncrementalBuild.Build.Environment

/-!
# Routines

A `Routine` is a recursion written down as a program.  It reads and changes a state, and it
may stop with an error; since nothing says that the recursion ends, it may also have no
result.  `Routine.runFrom` is what a routine does from a given state: the error or the
answer, and the state it leaves in either case.
-/

namespace IncrementalBuild

/-- A program that changes a state and may stop with an error. -/
abbrev Routine (State : Type) : Type → Type :=
  ExceptT (Stop BuildError) (StateT State Option)

namespace Routine

variable {State α β : Type}

/-- What a routine answers, and the state it leaves, from a given state. -/
def runFrom (routine : Routine State α) (s : State) :
    Option (Except (Stop BuildError) α × State) :=
  routine.run.run s

@[simp]
theorem runFrom_pure (a : α) (s : State) :
  (pure a : Routine State α).runFrom s = some (.ok a, s)
  := rfl

@[simp]
theorem runFrom_throw (e : Stop BuildError) (s : State) :
  (throw e : Routine State α).runFrom s = some (.error e, s)
  := rfl

@[simp]
theorem runFrom_throw_bind (e : Stop BuildError) (f : α → Routine State β) (s : State) :
  (throw e >>= f).runFrom s = some (.error e, s)
  := rfl

@[simp]
theorem runFrom_get_bind (f : State → Routine State β) (s : State) :
  (get >>= f).runFrom s = (f s).runFrom s
  := rfl

@[simp]
theorem runFrom_set_bind (t : State) (f : PUnit → Routine State β) (s : State) :
  (set t >>= f).runFrom s = (f ⟨⟩).runFrom t
  := rfl

@[simp]
theorem runFrom_modify (change : State → State) (s : State) :
  (modify change : Routine State PUnit).runFrom s = some (.ok ⟨⟩, change s)
  := rfl

@[simp]
theorem runFrom_modify_bind (change : State → State) (f : PUnit → Routine State β) (s : State) :
  (modify change >>= f).runFrom s = (f ⟨⟩).runFrom (change s)
  := rfl

/-- What a routine goes on with does not depend on how its first part is written. -/
theorem runFrom_bind_congr {routine routine' : Routine State α} {f : α → Routine State β}
    {s : State} (h : routine.runFrom s = routine'.runFrom s) :
  (routine >>= f).runFrom s = (routine' >>= f).runFrom s
  := by
  change Option.bind (routine.runFrom s) _ = Option.bind (routine'.runFrom s) _
  rw [h]

/-- A routine goes on with the answer of its first part. -/
theorem runFrom_bind_of_ok {routine : Routine State α} {f : α → Routine State β} {s t : State}
    {a : α} (h : routine.runFrom s = some (.ok a, t)) :
  (routine >>= f).runFrom s = (f a).runFrom t
  := by
  change Option.bind (routine.runFrom s) _ = _
  rw [h]
  rfl

/-- An error of its first part is the error of a routine. -/
theorem runFrom_bind_of_error {routine : Routine State α} {f : α → Routine State β} {s t : State}
    {e : Stop BuildError} (h : routine.runFrom s = some (.error e, t)) :
  (routine >>= f).runFrom s = some (.error e, t)
  := by
  change Option.bind (routine.runFrom s) _ = _
  rw [h]
  rfl

end Routine

end IncrementalBuild
