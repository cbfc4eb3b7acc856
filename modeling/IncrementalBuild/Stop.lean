/-!
# Stopping early

A computation that stops early fails with an error, which its caller is told of and can act on, or
it panics: then it breaks off where it is, and no caller is told of anything.
-/

namespace IncrementalBuild

/-- How a computation stops early. -/
inductive Stop (ε : Type)
  | failure (e : ε)
  | panic
deriving DecidableEq, Repr

namespace Stop

variable {ε δ : Type}

/-- The stop with the error replaced, if there is one. -/
def map (f : ε → δ) : Stop ε → Stop δ
  | failure e => .failure (f e)
  | panic => .panic

@[simp]
theorem map_failure (f : ε → δ) (e : ε) :
  (failure e).map f = .failure (f e)
  := rfl

@[simp]
theorem map_panic (f : ε → δ) :
  panic.map f = .panic
  := rfl

@[simp]
theorem map_eq_failure_iff {f : ε → δ} {stop : Stop ε} {d : δ} :
  stop.map f = .failure d ↔ ∃ e, stop = .failure e ∧ f e = d
  := by cases stop <;> simp

@[simp]
theorem map_eq_panic_iff {f : ε → δ} {stop : Stop ε} :
  stop.map f = .panic ↔ stop = .panic
  := by cases stop <;> simp

end Stop

end IncrementalBuild
