import IncrementalBuild.Build.Survey
import IncrementalBuild.Proofs.Graph.PostOrder

/-!
# Graphs that are alike

Two graphs are `Graph.Alike` along a relation between their nodes if related nodes have the same
name, the same declaration and the same commands, and if their dependencies are related one by
one.  The numbers of related nodes need not agree, and the graphs may have more nodes.

The part of a graph below a name is what can be reached from its node.  If the parts of two graphs
below a name say the same of every name, `Graph.SameBelow`, then the graphs are alike along
`Graph.Counterparts`, the relation between nodes of the two parts that have the same name; and
every node of one part has a counterpart in the other one.
-/

namespace IncrementalBuild.Graph

open Relation

variable {g g' : Graph} {R : g.Id → g'.Id → Prop} {a c : g.Id} {b d : g'.Id} {target : String}

/-- Related nodes of two graphs have the same name, declaration and commands, and dependencies
that are related one by one. -/
structure Alike (g g' : Graph) (R : g.Id → g'.Id → Prop) : Prop where
  name : ∀ {a b}, R a b → g.name a = g'.name b
  declared : ∀ {a b}, R a b → (g.node a).declared = (g'.node b).declared
  commands : ∀ {a b}, R a b → (g.node a).commands = (g'.node b).commands
  dependencies : ∀ {a b}, R a b → List.Forall₂ R (g.dependencies a) (g'.dependencies b)

namespace Alike

/-- A graph is like itself. -/
theorem refl (g : Graph) :
  Alike g g Eq
  where
  name := by rintro a _ rfl; rfl
  declared := by rintro a _ rfl; rfl
  commands := by rintro a _ rfl; rfl
  dependencies := by
    rintro a _ rfl
    rw [List.forall₂_eq_eq_eq]

/-- No node is related to two, since different nodes have different names. -/
theorem eq_iff (h : Alike g g' R) (hab : R a b) (hcd : R c d) :
  a = c ↔ b = d
  := by
  constructor
  · rintro rfl
    exact g'.name_injective ((h.name hab).symm.trans (h.name hcd))
  · rintro rfl
    exact g.name_injective ((h.name hab).trans (h.name hcd).symm)

theorem names_eq {path : List g.Id} {path' : List g'.Id} (h : Alike g g' R)
    (hpath : List.Forall₂ R path path') :
  path.map g.name = path'.map g'.name
  := by
  rw [← List.forall₂_eq_eq_eq, List.forall₂_map_left_iff, List.forall₂_map_right_iff]
  apply hpath.imp fun _ _ hab => h.name hab

/-- The same names lie along a cycle. -/
theorem cycle_eq {path : List g.Id} {path' : List g'.Id} (h : Alike g g' R)
    (hpath : List.Forall₂ R path path') (hab : R a b) :
  g.cycle path a = g'.cycle path' b
  := by
  unfold cycle
  induction hpath with
  | nil => simp [h.name hab]
  | @cons c d rest rest' hcd hrest ih =>
    by_cases hca : c = a
    · have hdb := (h.eq_iff hcd hab).1 hca
      simp only [List.dropWhile_cons, hca, hdb, ne_eq, not_true_eq_false, decide_false,
        Bool.false_eq_true, if_false, List.map_cons, h.name hab, h.names_eq hrest]
    · have hdb := mt (h.eq_iff hcd hab).2 hca
      simpa only [List.dropWhile_cons, ne_eq, hca, hdb, not_false_eq_true, decide_true,
        if_true] using ih

end Alike

/-! ### The part of a graph below a name -/

/-- A node can be reached from the node of a name. -/
def Below (g : Graph) (target : String) (node : g.Id) : Prop :=
  ∃ root, g.name root = target ∧ g.Reaches root node

/-- The same is said of two nodes: whether they are declared, which names they depend on, and
which commands they have. -/
structure SameEntry (g g' : Graph) (a : g.Id) (b : g'.Id) : Prop where
  declared : (g.node a).declared = (g'.node b).declared
  dependencies : (g.dependencies a).map g.name = (g'.dependencies b).map g'.name
  commands : (g.node a).commands = (g'.node b).commands

/-- What two graphs have below a name agrees name by name. -/
def SameBelow (g g' : Graph) (target : String) : Prop :=
  ∀ a b, g.Below target a → g'.Below target b → g.name a = g'.name b → SameEntry g g' a b

/-- Nodes of two graphs have the same name and lie below the same name. -/
structure Counterparts (g g' : Graph) (target : String) (a : g.Id) (b : g'.Id) : Prop where
  left : g.Below target a
  right : g'.Below target b
  name : g.name a = g'.name b

theorem SameEntry.symm (h : SameEntry g g' a b) :
  SameEntry g' g b a
  := ⟨h.declared.symm, h.dependencies.symm, h.commands.symm⟩

theorem SameBelow.symm (h : SameBelow g g' target) :
  SameBelow g' g target
  := fun b a hb ha hname => (h a b ha hb hname.symm).symm

theorem Below.needs (h : g.Below target a) (hneeds : g.Needs a c) :
  g.Below target c
  := by
  obtain ⟨root, hroot, hreaches⟩ := h
  exact ⟨root, hroot, hreaches.tail hneeds⟩

/-- The dependencies of counterparts are counterparts. -/
theorem SameBelow.dependencies (h : SameBelow g g' target)
    (hab : Counterparts g g' target a b) :
  List.Forall₂ (Counterparts g g' target) (g.dependencies a) (g'.dependencies b)
  := by
  have hnames := (h a b hab.left hab.right hab.name).dependencies
  rw [← List.forall₂_eq_eq_eq, List.forall₂_map_left_iff, List.forall₂_map_right_iff,
    List.forall₂_iff_zip] at hnames
  rw [List.forall₂_iff_zip]
  refine ⟨hnames.1, fun hmem => ?_⟩
  have hmems := List.of_mem_zip hmem
  exact ⟨hab.left.needs hmems.1, hab.right.needs hmems.2, hnames.2 hmem⟩

/-- Graphs are alike along the counterparts below a name, if these agree name by name. -/
theorem SameBelow.alike (h : SameBelow g g' target) :
  Alike g g' (Counterparts g g' target)
  where
  name hab := hab.name
  declared hab := (h _ _ hab.left hab.right hab.name).declared
  commands hab := (h _ _ hab.left hab.right hab.name).commands
  dependencies hab := h.dependencies hab

/-- What lies below a name has a counterpart in the other graph, if that has the name. -/
theorem SameBelow.exists_counterpart {root' : g'.Id} (h : SameBelow g g' target)
    (hroot' : g'.name root' = target) (ha : g.Below target a) :
  ∃ b, Counterparts g g' target a b
  := by
  obtain ⟨root, hroot, hreaches⟩ := ha
  induction hreaches with
  | refl =>
    exact ⟨root', ⟨root, hroot, .refl⟩, ⟨root', hroot', .refl⟩, hroot.trans hroot'.symm⟩
  | tail hreaches hneeds ih =>
    obtain ⟨b, hab⟩ := ih
    obtain ⟨n, hn, rfl⟩ := List.mem_iff_getElem.1 hneeds
    have hdependencies := h.dependencies hab
    exact ⟨_, hdependencies.get hn (hdependencies.length_eq ▸ hn)⟩

/-- The same names lie below a name. -/
theorem SameBelow.below_iff {root : g.Id} {root' : g'.Id} (h : SameBelow g g' target)
    (hroot : g.name root = target) (hroot' : g'.name root' = target) (name : String) :
  (∃ a, g.Below target a ∧ g.name a = name) ↔ ∃ b, g'.Below target b ∧ g'.name b = name
  := by
  constructor
  · rintro ⟨a, ha, rfl⟩
    obtain ⟨b, hab⟩ := h.exists_counterpart hroot' ha
    exact ⟨b, hab.right, hab.name.symm⟩
  · rintro ⟨b, hb, rfl⟩
    obtain ⟨a, hba⟩ := h.symm.exists_counterpart hroot hb
    exact ⟨a, hba.right, hba.name.symm⟩

end IncrementalBuild.Graph
