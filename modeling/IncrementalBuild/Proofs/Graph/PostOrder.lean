import IncrementalBuild.Graph.Basic
import Mathlib.Data.List.Nodup
import Mathlib.Logic.Relation

/-!
# Reachability and the depth-first post-order

A node `Needs` the nodes it lists as its dependencies, `DependsOn` what it needs over one
edge or more, and `Reaches` itself and what it depends on.

`PostOrder before pending after` says that a depth-first walk over the nodes `pending`,
dependencies in the order in which they are listed, which does not come back to the nodes
`before`, leaves the nodes behind in the order `after`, of which `before` is the beginning.
There is no such walk into a cycle: the post-order of a root lists every node it reaches
once, after its dependencies, and a root that has a post-order reaches no cycle.

`Completes` is the same for the stack of a walk under way.  `diamond` and `loop` are graphs
to try things on.
-/

namespace IncrementalBuild

/-- An element of a list with one more at the end is that one, or it is in the list. -/
theorem eq_or_exists_of_snoc_eq_append_cons {α : Type} {xs before after : List α} {a b : α}
    (h : xs ++ [a] = before ++ b :: after) :
  (xs = before ∧ a = b) ∨ ∃ rest, xs = before ++ b :: rest
  := by
  rcases List.eq_nil_or_concat after with rfl | ⟨rest, last, rfl⟩
  · exact .inl (List.append_singleton_inj.1 h)
  · right
    use rest
    rw [List.concat_eq_append, ← List.cons_append, ← List.append_assoc] at h
    apply (List.append_singleton_inj.1 h).1

namespace Graph

open Relation

variable {g : Graph}

/-! ### Reachability -/

/-- A node lists another one among its dependencies. -/
def Needs (g : Graph) (node dependency : g.Id) : Prop :=
  dependency ∈ g.dependencies node

/-- A node needs another one, over one edge or more. -/
def DependsOn (g : Graph) : g.Id → g.Id → Prop :=
  TransGen g.Needs

/-- A node is another one or depends on it. -/
def Reaches (g : Graph) : g.Id → g.Id → Prop :=
  ReflTransGen g.Needs

/-- A node that depends on itself can be reached from the root. -/
def ReachesCycle (g : Graph) (root : g.Id) : Prop :=
  ∃ node, g.Reaches root node ∧ g.DependsOn node node

theorem map_val_dependencies (id : g.Id) :
  (g.dependencies id).map Fin.val = (g.node id).dependencies.toList
  := by simp [dependencies, List.map_map, Function.comp_def]

theorem needs_iff {node dependency : g.Id} :
  g.Needs node dependency ↔ dependency.val ∈ (g.node node).dependencies
  := by
  rw [← Array.mem_toList_iff, ← map_val_dependencies,
    List.mem_map_of_injective fun _ _ => Fin.ext, Needs]

/-- Different nodes have different names. -/
theorem name_injective (g : Graph) :
  Function.Injective g.name
  := by
  intro a b h
  have ha : g.index[g.name a]? = some a.val :=
    (g.index_eq_some_iff _ _).2 ⟨g.node a, Array.getElem?_eq_getElem a.isLt, rfl⟩
  have hb : g.index[g.name b]? = some b.val :=
    (g.index_eq_some_iff _ _).2 ⟨g.node b, Array.getElem?_eq_getElem b.isLt, rfl⟩
  rw [h, hb] at ha
  apply Fin.ext (Option.some.inj ha).symm

/-! ### Lists that put dependencies first -/

/-- Every node of the list comes after all of its dependencies. -/
def DependenciesFirst (g : Graph) (order : List g.Id) : Prop :=
  ∀ (earlier later : List g.Id) (node : g.Id), order = earlier ++ node :: later →
    ∀ dependency, g.Needs node dependency → dependency ∈ earlier

namespace DependenciesFirst

theorem nil :
  g.DependenciesFirst []
  := by
  intro earlier later node h
  simp at h

/-- A node may be added when its dependencies are there. -/
theorem snoc {order : List g.Id} {node : g.Id} (h : g.DependenciesFirst order)
    (hnode : ∀ dependency, g.Needs node dependency → dependency ∈ order) :
  g.DependenciesFirst (order ++ [node])
  := by
  intro earlier later other hsplit dependency hneeds
  rcases eq_or_exists_of_snoc_eq_append_cons hsplit with ⟨rfl, rfl⟩ | ⟨rest, hrest⟩
  · apply hnode dependency hneeds
  · apply h earlier rest other hrest dependency hneeds

/-- A node of the list comes after all it depends on. -/
theorem mem_of_dependsOn {order earlier later : List g.Id} {node dependency : g.Id}
    (h : g.DependenciesFirst order) (hsplit : order = earlier ++ node :: later)
    (hdepends : g.DependsOn node dependency) :
  dependency ∈ earlier
  := by
  induction hdepends using TransGen.head_induction_on generalizing earlier later with
  | single hneeds => exact h earlier later _ hsplit dependency hneeds
  | head hneeds _ ih =>
    obtain ⟨before, between, rfl⟩ := List.append_of_mem (h earlier later _ hsplit _ hneeds)
    have hmem : dependency ∈ before := by
      apply ih
      rw [hsplit, List.append_assoc, List.cons_append]
    apply List.mem_append_left _ hmem

theorem mem_of_reaches {order : List g.Id} {node other : g.Id} (h : g.DependenciesFirst order)
    (hnode : node ∈ order) (hreaches : g.Reaches node other) :
  other ∈ order
  := by
  rcases reflTransGen_iff_eq_or_transGen.1 hreaches with rfl | hdepends
  · apply hnode
  · obtain ⟨earlier, later, hsplit⟩ := List.append_of_mem hnode
    have hmem := h.mem_of_dependsOn hsplit hdepends
    rw [hsplit]
    apply List.mem_append_left _ hmem

/-- No node of the list depends on itself: it would come before its first occurrence. -/
theorem not_dependsOn_self {order : List g.Id} {node : g.Id} (h : g.DependenciesFirst order)
    (hnode : node ∈ order) :
  ¬ g.DependsOn node node
  := by
  intro hdepends
  obtain ⟨earlier, later, hsplit, hfirst⟩ := List.eq_append_cons_of_mem hnode
  apply hfirst (h.mem_of_dependsOn hsplit hdepends)

/-- Of two nodes of which one depends on the other, the other one comes first. -/
theorem sublist_of_dependsOn {order : List g.Id} {node dependency : g.Id}
    (h : g.DependenciesFirst order) (hnode : node ∈ order)
    (hdepends : g.DependsOn node dependency) :
  [dependency, node].Sublist order
  := by
  obtain ⟨earlier, later, hsplit⟩ := List.append_of_mem hnode
  have hmem := h.mem_of_dependsOn hsplit hdepends
  rw [hsplit]
  have hnode : [node].Sublist (node :: later) := List.singleton_sublist.2 List.mem_cons_self
  apply (List.singleton_sublist.2 hmem).append hnode

end DependenciesFirst

/-! ### The depth-first post-order -/

/-- A depth-first walk over the nodes `pending`, which does not come back to the nodes
`before`, leaves the nodes behind in the order `after`. -/
inductive PostOrder (g : Graph) : (before pending after : List g.Id) → Prop
  | nil {before : List g.Id} :
    PostOrder g before [] before
  | skip {before rest after : List g.Id} {node : g.Id} :
    node ∈ before → PostOrder g before rest after → PostOrder g before (node :: rest) after
  | descend {before inside rest after : List g.Id} {node : g.Id} :
    node ∉ before → PostOrder g before (g.dependencies node) inside →
      PostOrder g (inside ++ [node]) rest after → PostOrder g before (node :: rest) after

namespace PostOrder

/-- What a walk leaves behind is added at the end. -/
theorem exists_append {before pending after : List g.Id} (h : g.PostOrder before pending after) :
  ∃ added, after = before ++ added
  := by
  induction h with
  | nil => exact ⟨[], (List.append_nil _).symm⟩
  | skip _ _ ih => exact ih
  | @descend _ _ _ _ node _ _ _ ihinside ihrest =>
    obtain ⟨inner, rfl⟩ := ihinside
    obtain ⟨outer, rfl⟩ := ihrest
    exact ⟨inner ++ node :: outer, by simp⟩

theorem mem_of_mem_before {before pending after : List g.Id} {node : g.Id}
    (h : g.PostOrder before pending after) (hnode : node ∈ before) :
  node ∈ after
  := by
  obtain ⟨added, rfl⟩ := h.exists_append
  apply List.mem_append_left _ hnode

/-- A walk leaves behind all it goes over. -/
theorem mem_of_mem_pending {before pending after : List g.Id} {node : g.Id}
    (h : g.PostOrder before pending after) (hnode : node ∈ pending) :
  node ∈ after
  := by
  induction h with
  | nil => simp at hnode
  | skip hbefore hrest ih =>
    rcases List.mem_cons.1 hnode with rfl | hnode
    · apply hrest.mem_of_mem_before hbefore
    · apply ih hnode
  | descend _ _ hrest _ ihrest =>
    rcases List.mem_cons.1 hnode with rfl | hnode
    · apply hrest.mem_of_mem_before (by simp)
    · apply ihrest hnode

theorem dependenciesFirst {before pending after : List g.Id}
    (h : g.PostOrder before pending after) (hbefore : g.DependenciesFirst before) :
  g.DependenciesFirst after
  := by
  induction h with
  | nil => exact hbefore
  | skip _ _ ih => exact ih hbefore
  | descend _ hinside _ ihinside ihrest =>
    apply ihrest
    apply (ihinside hbefore).snoc
    intro dependency hneeds
    apply hinside.mem_of_mem_pending hneeds

/-- A walk leaves behind nothing but what it can reach. -/
theorem reaches_of_mem {before pending after : List g.Id} {node : g.Id}
    (h : g.PostOrder before pending after) (hnode : node ∈ after) :
  node ∈ before ∨ ∃ start ∈ pending, g.Reaches start node
  := by
  induction h with
  | nil => exact .inl hnode
  | skip _ _ ih =>
    rcases ih hnode with hbefore | ⟨start, hstart, hreaches⟩
    · exact .inl hbefore
    · exact .inr ⟨start, List.mem_cons_of_mem _ hstart, hreaches⟩
  | @descend _ _ _ _ top _ _ _ ihinside ihrest =>
    rcases ihrest hnode with hmid | ⟨start, hstart, hreaches⟩
    · rcases List.mem_append.1 hmid with hmid | hmid
      · rcases ihinside hmid with hbefore | ⟨start, hstart, hreaches⟩
        · exact .inl hbefore
        · exact .inr ⟨top, List.mem_cons_self, ReflTransGen.head hstart hreaches⟩
      · rw [List.mem_singleton.1 hmid]
        exact .inr ⟨top, List.mem_cons_self, ReflTransGen.refl⟩
    · exact .inr ⟨start, List.mem_cons_of_mem _ hstart, hreaches⟩

/-- A walk leaves no node behind twice. -/
theorem nodup {before pending after : List g.Id} (h : g.PostOrder before pending after)
    (hfirst : g.DependenciesFirst before) (hbefore : before.Nodup) :
  after.Nodup
  := by
  induction h with
  | nil => exact hbefore
  | skip _ _ ih => exact ih hfirst hbefore
  | @descend _ inside _ _ node hnew hinside _ ihinside ihrest =>
    have hfirst' : g.DependenciesFirst (inside ++ [node]) :=
      (hinside.dependenciesFirst hfirst).snoc fun _ hneeds => hinside.mem_of_mem_pending hneeds
    apply ihrest hfirst'
    rw [← List.concat_eq_append]
    apply List.Nodup.concat _ (ihinside hfirst hbefore)
    -- a node met again on the walk over its dependencies would depend on itself
    intro hnode
    rcases hinside.reaches_of_mem hnode with hmem | ⟨start, hstart, hreaches⟩
    · apply hnew hmem
    · apply hfirst'.not_dependsOn_self (by simp) (TransGen.head' hstart hreaches)

/-- There is at most one post-order. -/
theorem unique {before pending after after' : List g.Id} (h : g.PostOrder before pending after)
    (h' : g.PostOrder before pending after') :
  after = after'
  := by
  induction h generalizing after' with
  | nil =>
    cases h'
    rfl
  | skip hmem _ ih =>
    cases h' with
    | skip _ hrest => exact ih hrest
    | descend hnew _ _ => exact absurd hmem hnew
  | descend hnew _ _ ihinside ihrest =>
    cases h' with
    | skip hmem _ => exact absurd hmem hnew
    | descend _ hinside hrest =>
      obtain rfl := ihinside hinside
      apply ihrest hrest

end PostOrder

/-! ### The post-order of a root -/

/-- The depth-first post-order of the nodes the root reaches. -/
def PostOrderOf (g : Graph) (root : g.Id) (order : List g.Id) : Prop :=
  g.PostOrder [] [root] order

namespace PostOrderOf

variable {root : g.Id} {order : List g.Id}

theorem dependenciesFirst (h : g.PostOrderOf root order) :
  g.DependenciesFirst order
  := PostOrder.dependenciesFirst h .nil

theorem nodup (h : g.PostOrderOf root order) :
  order.Nodup
  := PostOrder.nodup h .nil List.nodup_nil

theorem mem_iff (h : g.PostOrderOf root order) {node : g.Id} :
  node ∈ order ↔ g.Reaches root node
  := by
  constructor
  · intro hnode
    rcases PostOrder.reaches_of_mem h hnode with hnone | ⟨start, hstart, hreaches⟩
    · simp at hnone
    · rw [List.mem_singleton.1 hstart] at hreaches
      apply hreaches
  · intro hreaches
    apply h.dependenciesFirst.mem_of_reaches _ hreaches
    apply PostOrder.mem_of_mem_pending h List.mem_cons_self

/-- A root that has a post-order reaches no cycle. -/
theorem not_reachesCycle (h : g.PostOrderOf root order) :
  ¬ g.ReachesCycle root
  := by
  rintro ⟨node, hreaches, hdepends⟩
  apply h.dependenciesFirst.not_dependsOn_self (h.mem_iff.2 hreaches) hdepends

end PostOrderOf

/-! ### The stack of a walk -/

/-- A walk that has left the nodes of the first list behind, and whose stack holds nodes
with the dependencies of them it has yet to go over, leaves the nodes behind in the order
`final` in the end. -/
def Completes (g : Graph) (final : List g.Id) : List g.Id → List (g.Id × List g.Id) → Prop
  | before, [] => before = final
  | before, (node, pending) :: below =>
    ∃ inside, g.PostOrder before pending inside ∧ g.Completes final (inside ++ [node]) below

namespace Completes

variable {final before rest : List g.Id} {node dependency : g.Id}
  {below stack : List (g.Id × List g.Id)}

theorem pop_iff :
  g.Completes final before ((node, []) :: below) ↔ g.Completes final (before ++ [node]) below
  := by
  constructor
  · rintro ⟨inside, hinside, hbelow⟩
    cases hinside
    apply hbelow
  · intro h
    exact ⟨before, .nil, h⟩

theorem skip_iff (hmem : dependency ∈ before) :
  g.Completes final before ((node, dependency :: rest) :: below)
    ↔ g.Completes final before ((node, rest) :: below)
  := by
  constructor
  · rintro ⟨inside, hinside, hbelow⟩
    cases hinside with
    | skip _ hrest => exact ⟨inside, hrest, hbelow⟩
    | descend hnew _ _ => exact absurd hmem hnew
  · rintro ⟨inside, hinside, hbelow⟩
    exact ⟨inside, .skip hmem hinside, hbelow⟩

theorem push_iff (hnew : dependency ∉ before) :
  g.Completes final before ((node, dependency :: rest) :: below)
    ↔ g.Completes final before
      ((dependency, g.dependencies dependency) :: (node, rest) :: below)
  := by
  constructor
  · rintro ⟨inside, hinside, hbelow⟩
    cases hinside with
    | skip hmem _ => exact absurd hmem hnew
    | descend _ hdependency hrest => exact ⟨_, hdependency, _, hrest, hbelow⟩
  · rintro ⟨first, hfirst, inside, hinside, hbelow⟩
    exact ⟨inside, .descend hnew hfirst hinside, hbelow⟩

theorem root_iff {root : g.Id} :
  g.Completes final [] [(root, g.dependencies root)] ↔ g.PostOrderOf root final
  := by
  constructor
  · rintro ⟨inside, hinside, rfl⟩
    exact .descend List.not_mem_nil hinside .nil
  · intro h
    cases h with
    | skip hmem _ => simp at hmem
    | descend _ hinside hrest =>
      cases hrest
      exact ⟨_, hinside, rfl⟩

/-- The nodes on the stack are still to be left behind, the top one first. -/
theorem exists_append (h : g.Completes final before stack) :
  ∃ added, final = before ++ added ∧ (stack.map Prod.fst).Sublist added
  := by
  induction stack generalizing before with
  | nil => exact ⟨[], by rw [← h, List.append_nil], .slnil⟩
  | cons top below ih =>
    obtain ⟨inside, hinside, hbelow⟩ := h
    obtain ⟨inner, rfl⟩ := hinside.exists_append
    obtain ⟨outer, rfl, hsub⟩ := ih hbelow
    refine ⟨inner ++ top.1 :: outer, by simp, ?_⟩
    rw [List.map_cons]
    apply (hsub.cons_cons _).trans (List.sublist_append_right _ _)

/-- The dependencies a node on top has yet to deal with are left behind as well. -/
theorem mem_of_mem_pending {pending : List g.Id}
    (h : g.Completes final before ((node, pending) :: below)) (hmem : dependency ∈ pending) :
  dependency ∈ final
  := by
  obtain ⟨inside, hinside, hbelow⟩ := h
  obtain ⟨added, rfl, -⟩ := hbelow.exists_append
  apply List.mem_append_left
  apply List.mem_append_left _ (hinside.mem_of_mem_pending hmem)

/-- In a walk that leaves no node behind twice, a dependency that is next is not on the
stack. -/
theorem not_mem_stack (hnodup : final.Nodup) (hnew : dependency ∉ before)
    (h : g.Completes final before ((node, dependency :: rest) :: below)) :
  dependency ∉ node :: below.map Prod.fst
  := by
  obtain ⟨inside, hinside, hbelow⟩ := h
  obtain ⟨inner, rfl⟩ := hinside.exists_append
  obtain ⟨outer, rfl, hsub⟩ := hbelow.exists_append
  have hinner : dependency ∈ inner := by
    have hmem : dependency ∈ before ++ inner := hinside.mem_of_mem_pending List.mem_cons_self
    apply (List.mem_append.1 hmem).resolve_left hnew
  intro hstack
  have houter : dependency ∈ node :: outer := by
    rcases List.mem_cons.1 hstack with rfl | hstack
    · apply List.mem_cons_self
    · apply List.mem_cons_of_mem _ (hsub.subset hstack)
  rw [List.append_assoc, List.append_assoc] at hnodup
  apply List.disjoint_of_nodup_append hnodup.of_append_right hinner houter

end Completes

/-! ### A graph to try things on -/

/-- The graph with a node declared anew, with the given dependencies and commands. -/
def withRule (g : Graph) (target : g.Id) (dependencies : List g.Id) (commands : List String) :
    Graph :=
  g.changeNode target.val
    (fun node => ⟨node.name, true, (dependencies.map (·.val)).toArray, commands.toArray⟩)
    (fun _ => rfl)
    (by
      intro node dependency hmem
      simp only [List.mem_toArray, List.mem_map] at hmem
      obtain ⟨id, -, rfl⟩ := hmem
      exact .inr (g.id_lt_size id))

/-- The names of `diamond`. -/
def diamondNames : Graph :=
  (((empty.pushNode "app" (by simp [empty])).pushNode "left" (by simp [pushNode, empty])).pushNode
    "right" (by simp [pushNode, empty])).pushNode "source" (by simp [pushNode, empty])

/-- A program of two parts, which are made from the same source. -/
def diamond : Graph :=
  ((diamondNames.withRule ⟨0, by decide⟩ [⟨1, by decide⟩, ⟨2, by decide⟩] ["app"]).withRule
    ⟨1, by decide⟩ [⟨3, by decide⟩] ["left"]).withRule ⟨2, by decide⟩ [⟨3, by decide⟩] ["right"]

/-- The program. -/
def diamondRoot : diamond.Id :=
  ⟨0, by decide⟩

/-- The same, but that the source is made from the program. -/
def loop : Graph :=
  diamond.withRule ⟨3, by decide⟩ [diamondRoot] []

/-- The program. -/
def loopRoot : loop.Id :=
  ⟨0, by decide⟩

end Graph

end IncrementalBuild
