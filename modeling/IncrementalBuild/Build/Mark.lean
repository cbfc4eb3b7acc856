import IncrementalBuild.Graph.Basic
import IncrementalBuild.Time.Stamp

/-!
# Marks

A build leaves a mark on every node it comes to: how far it has got with the node, whether
it found the node stale, and when the file of the node was modified as far as the build
has seen.  Marks are kept from one build to the next until they are cleared.

`unvisited` counts the nodes a build has not come to.
-/

namespace IncrementalBuild

/-! ### Counting in vectors -/

/-- Putting in an element that is not counted, or in place of one that is, does not raise
the count. -/
theorem countP_set_le {α : Type} {n : Nat} {p : α → Bool} {xs : Vector α n} {i : Nat}
    (hi : i < n) {a : α} (h : p a = true → p xs[i] = true) :
  (xs.set i a hi).countP p ≤ xs.countP p
  := by
  rw [Vector.countP_set hi]
  by_cases ha : p a = true
  · have hpos : 0 < xs.countP p := Vector.countP_pos_iff.2 ⟨xs[i], by simp, h ha⟩
    rw [if_pos ha, if_pos (h ha)]
    omega
  · rw [if_neg ha]
    omega

/-- Putting in an element that is not counted in place of one that is lowers the count. -/
theorem countP_set_lt {α : Type} {n : Nat} {p : α → Bool} {xs : Vector α n} {i : Nat}
    (hi : i < n) {a : α} (hold : p xs[i] = true) (hnew : ¬ p a = true) :
  (xs.set i a hi).countP p < xs.countP p
  := by
  rw [Vector.countP_set hi]
  have hpos : 0 < xs.countP p := Vector.countP_pos_iff.2 ⟨xs[i], by simp, hold⟩
  rw [if_pos hold, if_neg hnew]
  omega

/-! ### The marks of a graph -/

/-- How far a walk has got with a node: it has not come to it, or the node lies on the path
the walk has taken, or the walk has left it for good. -/
inductive Visit
  | unvisited
  | inProgress
  | done
deriving DecidableEq, Repr

/-- The mark of a node. -/
structure Mark where
  visit : Visit
  mustBuild : Bool
  modified : Option Stamp
deriving DecidableEq

/-- The mark of a node no build has come to. -/
def Mark.clear : Mark :=
  ⟨.unvisited, false, none⟩

instance : Inhabited Mark := ⟨Mark.clear⟩

/-- The marks of the nodes of a graph. -/
abbrev Marks (g : Graph) : Type :=
  Vector Mark g.size

namespace Marks

/-- No build has come to any node. -/
def clear (g : Graph) : Marks g :=
  Vector.replicate g.size .clear

/-- Marks given in the order of the nodes; nodes beyond them have no mark yet. -/
def ofArray (g : Graph) (marks : Array Mark) : Marks g :=
  ⟨(marks ++ Array.replicate (g.size - marks.size) Mark.clear).take g.size, by simp; omega⟩

/-- The mark of a node. -/
def mark {g : Graph} (marks : Marks g) (id : g.Id) : Mark :=
  have h := g.id_lt_size id
  marks[id.val]

/-- The marks with the mark of one node changed. -/
def change {g : Graph} (marks : Marks g) (id : g.Id) (f : Mark → Mark) : Marks g :=
  marks.set id.val (f (marks.mark id)) (g.id_lt_size id)

/-- The number of nodes a build has not come to. -/
def unvisited {g : Graph} (marks : Marks g) : Nat :=
  marks.countP (·.visit = .unvisited)

@[simp]
theorem mark_change_self {g : Graph} (marks : Marks g) (id : g.Id) (f : Mark → Mark) :
  (marks.change id f).mark id = f (marks.mark id)
  := by simp [change, mark]

theorem mark_change_of_ne {g : Graph} (marks : Marks g) {id other : g.Id} (h : id ≠ other)
    (f : Mark → Mark) :
  (marks.change id f).mark other = marks.mark other
  := by
  have hne : id.val ≠ other.val := fun heq => h (Fin.ext heq)
  simp [change, mark, hne]

/-- A change that does not take a visit back leaves no more nodes unvisited. -/
theorem unvisited_change_le {g : Graph} (marks : Marks g) (id : g.Id) {f : Mark → Mark}
    (h : (f (marks.mark id)).visit = .unvisited → (marks.mark id).visit = .unvisited) :
  (marks.change id f).unvisited ≤ marks.unvisited
  := by
  apply countP_set_le
  intro hnew
  exact decide_eq_true (h (of_decide_eq_true hnew))

/-- A change that visits an unvisited node leaves fewer nodes unvisited. -/
theorem unvisited_change_lt {g : Graph} (marks : Marks g) (id : g.Id) {f : Mark → Mark}
    (hold : (marks.mark id).visit = .unvisited) (hnew : (f (marks.mark id)).visit ≠ .unvisited) :
  (marks.change id f).unvisited < marks.unvisited
  := by
  apply countP_set_lt
  · exact decide_eq_true hold
  · exact fun h => hnew (of_decide_eq_true h)

end Marks

end IncrementalBuild
