import IncrementalBuild.Build.Mark
import IncrementalBuild.Proofs.Graph.PostOrder
import Mathlib.Algebra.BigOperators.Ring.Finset
import Mathlib.Algebra.Order.BigOperators.Group.Finset

/-!
# How long a depth-first traversal takes

A `Traversal` is a walk over a graph under way, as far as the graph is concerned: how far it has
got with each node, and the nodes on its path with the dependencies they have yet to deal with.
`Traversal.Advance` is one turn of it.  No matter which marks it began with and whether there are
cycles, a turn deals with one dependency of one node, or leaves a node.  So the `load` gets less:
the turns that the nodes on the path have yet to take, and those that the nodes will take which
the root reaches and which have not been visited.  At the beginning the load is at most the
`extent` of the root.

A node that has left the path is done, so it never comes onto the path again.

`Turns` are the turns that a loop takes, one leading to the next; `Turns.linear` is for loops whose
turns are those of a traversal.
-/

namespace IncrementalBuild

variable {g : Graph}

/-! ### The part of a graph that a root reaches -/

namespace Graph

open Classical in
/-- The nodes that a root reaches. -/
noncomputable def reached (g : Graph) (root : g.Id) : Finset g.Id :=
  Finset.univ.filter (g.Reaches root)

@[simp]
theorem mem_reached {root node : g.Id} :
  node ∈ g.reached root ↔ g.Reaches root node
  := by simp [reached]

/-- How many nodes a root reaches, together with the edges that leave them. -/
noncomputable def extent (g : Graph) (root : g.Id) : Nat :=
  (g.reached root).card + ∑ node ∈ g.reached root, (g.dependencies node).length

/-- How many turns a node takes: one for each of its dependencies, and one in which it is left. -/
def turns (g : Graph) (node : g.Id) : Nat :=
  (g.dependencies node).length + 1

theorem extent_eq_sum (root : g.Id) :
  g.extent root = ∑ node ∈ g.reached root, g.turns node
  := by
  rw [extent, Nat.add_comm, Finset.card_eq_sum_ones, ← Finset.sum_add_distrib]
  rfl

end Graph

/-- How far a walk has got with each node, and the nodes on its path, the end of it first, with
their dependencies yet to be dealt with. -/
structure Traversal (g : Graph) where
  visit : g.Id → Visit
  tasks : List (g.Id × List g.Id)

namespace Traversal

variable {root : g.Id} {t u v : Traversal g}

/-- The nodes on the path, the end of it first. -/
def path (t : Traversal g) : List g.Id :=
  t.tasks.map Prod.fst

/-- The traversal that comes to its root. -/
def start (root : g.Id) (visit : g.Id → Visit) : Traversal g :=
  ⟨Function.update visit root .inProgress, [(root, g.dependencies root)]⟩

/-- A turn passes over a dependency, or goes down to one that has not been visited, or leaves
the node at the end of the path. -/
inductive Advance : Traversal g → Traversal g → Prop
  | pass {visit : g.Id → Visit} {node dependency : g.Id} {rest : List g.Id}
      {below : List (g.Id × List g.Id)} :
    Advance ⟨visit, (node, dependency :: rest) :: below⟩ ⟨visit, (node, rest) :: below⟩
  | descend {visit : g.Id → Visit} {node dependency : g.Id} {rest : List g.Id}
      {below : List (g.Id × List g.Id)} :
    visit dependency = .unvisited →
      Advance ⟨visit, (node, dependency :: rest) :: below⟩
        ⟨Function.update visit dependency .inProgress,
          (dependency, g.dependencies dependency) :: (node, rest) :: below⟩
  | leave {visit : g.Id → Visit} {node : g.Id} {below : List (g.Id × List g.Id)} :
    Advance ⟨visit, (node, []) :: below⟩ ⟨Function.update visit node .done, below⟩

/-! ### What every turn keeps -/

/-- The path goes over nodes in progress, none of them twice, and the root reaches what they
have yet to deal with. -/
structure Sound (root : g.Id) (t : Traversal g) : Prop where
  reaches : ∀ task ∈ t.tasks, ∀ dependency ∈ task.2, g.Reaches root dependency
  inProgress : ∀ node ∈ t.path, t.visit node = .inProgress
  nodup : t.path.Nodup

theorem sound_start (root : g.Id) (visit : g.Id → Visit) :
  (start root visit).Sound root
  where
  reaches := by
    intro task htask dependency hdependency
    rw [List.mem_singleton.1 htask] at hdependency
    exact .single hdependency
  inProgress := by simp [start, path]
  nodup := List.nodup_singleton root

theorem Advance.sound (h : Advance t u) (hsound : t.Sound root) :
  u.Sound root
  := by
  obtain ⟨hreaches, hprogress, hnodup⟩ := hsound
  cases h with
  | pass =>
    rw [List.forall_mem_cons] at hreaches
    refine ⟨List.forall_mem_cons.2 ⟨?_, hreaches.2⟩, hprogress, hnodup⟩
    exact fun other hother => hreaches.1 other (List.mem_cons_of_mem _ hother)
  | @descend visit node dependency rest below hvisit =>
    rw [List.forall_mem_cons] at hreaches
    have hdependency : g.Reaches root dependency := hreaches.1 dependency List.mem_cons_self
    have hnew : dependency ∉ node :: below.map Prod.fst := by
      intro hmem
      cases hvisit.symm.trans (hprogress dependency hmem)
    refine ⟨?_, ?_, List.nodup_cons.2 ⟨hnew, hnodup⟩⟩
    · refine List.forall_mem_cons.2 ⟨?_, List.forall_mem_cons.2 ⟨?_, hreaches.2⟩⟩
      · exact fun other hother => hdependency.tail hother
      · exact fun other hother => hreaches.1 other (List.mem_cons_of_mem _ hother)
    · refine List.forall_mem_cons.2 ⟨Function.update_self _ _ _, ?_⟩
      intro other hother
      have hne : other ≠ dependency := fun heq => hnew (heq ▸ hother)
      exact (Function.update_of_ne hne _ _).trans (hprogress other hother)
  | @leave visit node below =>
    obtain ⟨hnot, hbelow⟩ := List.nodup_cons.1 hnodup
    refine ⟨(List.forall_mem_cons.1 hreaches).2, ?_, hbelow⟩
    intro other hother
    have hne : other ≠ node := fun heq => hnot (heq ▸ hother)
    exact (Function.update_of_ne hne _ _).trans (hprogress other (List.mem_cons_of_mem _ hother))

/-! ### The load -/

/-- The nodes that the root reaches and that have not been visited. -/
noncomputable def ahead (root : g.Id) (visit : g.Id → Visit) : Finset g.Id :=
  (g.reached root).filter (visit · = .unvisited)

/-- A node that is visited is not ahead any more. -/
theorem ahead_update (root : g.Id) (visit : g.Id → Visit) (node : g.Id) {now : Visit}
    (hnow : now ≠ .unvisited) :
  ahead root (Function.update visit node now) = (ahead root visit).erase node
  := by
  ext other
  by_cases heq : other = node
  · simp [ahead, heq, hnow]
  · simp [ahead, heq]

/-- The turns that are still to be taken: by the nodes ahead, and by those on the path. -/
noncomputable def load (root : g.Id) (t : Traversal g) : Nat :=
  ∑ node ∈ ahead root t.visit, g.turns node + (t.tasks.map fun task => task.2.length + 1).sum

theorem load_start_le (root : g.Id) (visit : g.Id → Visit) :
  (start root visit).load root ≤ g.extent root
  := by
  have hroot : root ∈ g.reached root := Graph.mem_reached.2 .refl
  have hsub : (ahead root visit).erase root ⊆ (g.reached root).erase root :=
    Finset.erase_subset_erase root (Finset.filter_subset _ _)
  calc (start root visit).load root
      = ∑ node ∈ (ahead root visit).erase root, g.turns node + g.turns root := by
        simp [load, start, ahead_update, Graph.turns]
    _ ≤ ∑ node ∈ (g.reached root).erase root, g.turns node + g.turns root :=
        Nat.add_le_add_right (Finset.sum_le_sum_of_subset hsub) _
    _ = g.extent root := by rw [Finset.sum_erase_add _ _ hroot, Graph.extent_eq_sum]

theorem Advance.load_lt (h : Advance t u) (hsound : t.Sound root) :
  u.load root < t.load root
  := by
  cases h with
  | pass => simp [load]
  | @descend visit node dependency rest below hvisit =>
    -- what the dependency takes off the nodes ahead it brings onto the path
    have hreaches : g.Reaches root dependency :=
      hsound.reaches _ List.mem_cons_self dependency List.mem_cons_self
    have hahead : dependency ∈ ahead root visit :=
      Finset.mem_filter.2 ⟨Graph.mem_reached.2 hreaches, hvisit⟩
    have hsum := Finset.sum_erase_add _ g.turns hahead
    simp only [load, ahead_update, ne_eq, reduceCtorEq, not_false_eq_true, List.map_cons,
      List.sum_cons, List.length_cons]
    rw [← hsum, Graph.turns]
    omega
  | @leave visit node below =>
    have hle := Finset.sum_le_sum_of_subset (f := g.turns)
      (Finset.erase_subset node (ahead root visit))
    simp only [load, ahead_update, ne_eq, reduceCtorEq, not_false_eq_true, List.map_cons,
      List.sum_cons, List.length_nil]
    omega

/-- As long as there is a node on the path there are turns to be taken. -/
theorem load_pos (h : t.tasks ≠ []) (root : g.Id) :
  0 < t.load root
  := by
  obtain ⟨task, below, htasks⟩ := List.exists_cons_of_ne_nil h
  simp only [load, htasks, List.map_cons, List.sum_cons]
  omega

/-! ### Nodes that have left the path -/

/-- What was done is done, and what was on the path lies on it or is done. -/
structure Precedes (t u : Traversal g) : Prop where
  done : ∀ node, t.visit node = .done → u.visit node = .done
  path : ∀ node ∈ t.path, node ∈ u.path ∨ u.visit node = .done

theorem Precedes.trans (h : Precedes t u) (h' : Precedes u v) :
  Precedes t v
  where
  done node hnode := h'.done node (h.done node hnode)
  path node hnode := (h.path node hnode).elim (h'.path node) fun hdone => .inr (h'.done node hdone)

instance : IsTrans (Traversal g) Precedes := ⟨fun _ _ _ => Precedes.trans⟩

theorem Advance.precedes (h : Advance t u) :
  Precedes t u
  := by
  cases h with
  | pass => exact ⟨fun _ => id, fun _ => .inl⟩
  | @descend visit _ dependency _ _ hvisit =>
    refine ⟨?_, fun other hother => .inl (List.mem_cons_of_mem _ hother)⟩
    intro other hother
    have hne : other ≠ dependency := by
      rintro rfl
      cases hvisit.symm.trans hother
    exact (Function.update_of_ne hne _ _).trans hother
  | @leave visit node below =>
    constructor
    · intro other hother
      by_cases heq : other = node
      · exact heq ▸ Function.update_self _ _ _
      · exact (Function.update_of_ne heq _ _).trans hother
    · intro other hother
      rcases List.mem_cons.1 hother with rfl | hbelow
      · exact .inr (Function.update_self _ _ _)
      · exact .inl hbelow

/-! ### A whole traversal -/

/-- Not more turns are taken than there are nodes that the root reaches and edges that leave
them, no node lies on the path twice, and none comes back that has left it. -/
structure Linear (root : g.Id) (turns : List (Traversal g)) : Prop where
  length_le : turns.length ≤ g.extent root
  nodup : ∀ t ∈ turns, t.path.Nodup
  gone : ∀ t u v, [t, u, v].Sublist turns → ∀ node ∈ t.path, node ∉ u.path → node ∉ v.path

variable {turns : List (Traversal g)}

/-- Each turn takes one off the load, and there is some left for the last one. -/
theorem length_le_load (hchain : turns.IsChain Advance) (hsound : ∀ t ∈ turns, t.Sound root)
    (htasks : ∀ t ∈ turns, t.tasks ≠ []) :
  ∀ first ∈ turns.head?, turns.length ≤ first.load root
  := by
  induction turns with
  | nil => simp
  | cons first rest ih =>
    obtain ⟨hnext, hchained⟩ := List.isChain_cons.1 hchain
    rw [List.forall_mem_cons] at hsound htasks
    have hrest := ih hchained hsound.2 htasks.2
    rintro _ ⟨⟩
    cases rest with
    | nil => exact load_pos htasks.1 root
    | cons next rest =>
      have hlt := (hnext next rfl).load_lt hsound.1
      have hle := hrest next rfl
      rw [List.length_cons]
      omega

/-- A traversal that begins at its root and goes on turn by turn is linear. -/
theorem linear_of_isChain {visit : g.Id → Visit} (hchain : turns.IsChain Advance)
    (hfirst : ∀ first ∈ turns.head?, first = start root visit)
    (htasks : ∀ t ∈ turns, t.tasks ≠ []) :
  Linear root turns
  := by
  have hsound : ∀ t ∈ turns, t.Sound root := by
    apply hchain.induction (Sound root) turns fun _ _ => Advance.sound
    intro hne
    rw [hfirst _ (List.head_mem_head? hne)]
    apply sound_start
  refine ⟨?_, fun t ht => (hsound t ht).nodup, ?_⟩
  · cases turns with
    | nil => exact Nat.zero_le _
    | cons first rest =>
      apply (length_le_load hchain hsound htasks first rfl).trans
      rw [hfirst first rfl]
      apply load_start_le
  · intro t u v hsub node hnode hgone hback
    have hpair := (hchain.imp fun _ _ => Advance.precedes).pairwise.sublist hsub
    simp only [List.pairwise_cons, List.mem_cons, List.not_mem_nil, or_false, forall_eq_or_imp,
      forall_eq] at hpair
    have hdone := hpair.2.1.done node ((hpair.1.1.path node hnode).resolve_left hgone)
    have hv : v ∈ turns := hsub.subset (by simp)
    rw [(hsound v hv).inProgress node hback] at hdone
    cases hdone

end Traversal

/-! ### The turns of a loop -/

/-- The states at which a loop takes a turn, from the first to the last: each turn leads to the
next, and the loop is not over at any of them. -/
structure Turns {State : Type} (Next : State → State → Prop) (Over : State → Prop) (first : State)
    (turns : List State) : Prop where
  head : ∀ turn ∈ turns.head?, turn = first
  chain : turns.IsChain Next
  live : ∀ turn ∈ turns, ¬ Over turn

namespace Turns

variable {State : Type} {Next : State → State → Prop} {Over : State → Prop}
  {first next : State} {turns : List State}

theorem nil :
  Turns Next Over first []
  := by constructor <;> simp

theorem single (h : ¬ Over first) :
  Turns Next Over first [first]
  := by constructor <;> simp [h]

theorem cons (hlive : ¬ Over first) (hnext : Next first next) (h : Turns Next Over next turns) :
  Turns Next Over first (first :: turns)
  where
  head := by simp
  chain := List.isChain_cons.2 ⟨fun turn hturn => h.head turn hturn ▸ hnext, h.chain⟩
  live := List.forall_mem_cons.2 ⟨hlive, h.live⟩

/-- A loop whose turns are those of a traversal is linear. -/
theorem linear {root : g.Id} {visit : g.Id → Visit} {traversal : State → Traversal g}
    (h : Turns Next Over first turns) (hfirst : traversal first = .start root visit)
    (hnext : ∀ turn next, Next turn next → (traversal turn).Advance (traversal next))
    (hover : ∀ turn, (traversal turn).tasks = [] → Over turn) :
  Traversal.Linear root (turns.map traversal)
  := by
  apply Traversal.linear_of_isChain
  · rw [List.isChain_map]
    exact h.chain.imp hnext
  · intro start hstart
    rw [List.head?_map] at hstart
    obtain ⟨turn, hturn, rfl⟩ := Option.map_eq_some_iff.1 hstart
    rw [h.head turn hturn, hfirst]
  · rw [List.forall_mem_map]
    exact fun turn hturn hnil => h.live turn hturn (hover turn hnil)

end Turns

end IncrementalBuild
