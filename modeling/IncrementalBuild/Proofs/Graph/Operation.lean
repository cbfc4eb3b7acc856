import IncrementalBuild.Graph.Basic
import Mathlib.Data.List.Forall2

/-!
# What the operations on a graph do

`Interned`, `Declaring` and `Depending` say all there is to know about interning a name,
declaring it and adding a dependency: the nodes that are there afterwards, the node
declared first, and the answer.  An operation that fails leaves the graph it found, although
it interns the name before it looks for the fault: a name that is declared already, or is
a dependency already, has a node already.

`HasName` relates the number of a node to its name, one to one.  A graph is `Plain` if the
nodes that are not declared have no dependencies, and it is if only declared nodes
are given any.
-/

namespace IncrementalBuild.Graph

variable {g between after : Graph} {name other : String} {id target : Nat}

/-! ### Numbers, names and declarations -/

/-- The node with a number has a name. -/
def HasName (g : Graph) (id : Nat) (name : String) : Prop :=
  ∃ node : Node, g.nodes[id]? = some node ∧ node.name = name

/-- A name has a node that is declared. -/
def IsDeclared (g : Graph) (name : String) : Prop :=
  ∃ (id : Nat) (node : Node),
    g.nodes[id]? = some node ∧ node.name = name ∧ node.declared = true

/-- Nodes that are not declared have no dependencies. -/
def Plain (g : Graph) : Prop :=
  ∀ (id : Nat) (node : Node),
    g.nodes[id]? = some node → node.declared = false → node.dependencies = #[]

theorem index_eq_some_iff_hasName :
  g.index[name]? = some id ↔ g.HasName id name
  := g.index_eq_some_iff name id

theorem HasName.lt_size (h : g.HasName id name) :
  id < g.nodes.size
  := by
  obtain ⟨node, hnode, -⟩ := h
  obtain ⟨hlt, -⟩ := Array.getElem?_eq_some_iff.1 hnode
  apply hlt

theorem HasName.find?_eq (h : g.HasName id name) :
  g.find? name = some ⟨id, h.lt_size⟩
  := by
  have hindex := index_eq_some_iff_hasName.2 h
  unfold find?
  split
  · next hnone => cases hnone.symm.trans hindex
  · next other hother =>
    obtain rfl := Option.some.inj (hother.symm.trans hindex)
    rfl

/-- A name is the name of one node only. -/
theorem HasName.id_eq {id' : Nat} (h : g.HasName id name) (h' : g.HasName id' name) :
  id = id'
  := by
  rw [← index_eq_some_iff_hasName] at h h'
  apply Option.some.inj (h.symm.trans h')

/-- A node has one name only. -/
theorem HasName.name_eq (h : g.HasName id name) (h' : g.HasName id other) :
  name = other
  := by
  obtain ⟨node, hnode, rfl⟩ := h
  obtain ⟨node', hnode', rfl⟩ := h'
  rw [Option.some.inj (hnode.symm.trans hnode')]

theorem biUnique_hasName (g : Graph) :
  Relator.BiUnique g.HasName
  := ⟨fun _ _ _ h h' => h.id_eq h', fun _ _ _ h h' => h.name_eq h'⟩

/-- A number is among numbers if its name is among their names. -/
theorem mem_iff_of_hasName {dependencies : Array Nat} {names : List String}
    (hname : g.HasName id name) (hnames : List.Forall₂ g.HasName dependencies.toList names) :
  id ∈ dependencies ↔ name ∈ names
  := Array.mem_toList_iff.symm.trans (List.rel_mem g.biUnique_hasName hname hnames)

/-- A declared name is one whose node is declared. -/
theorem isDeclared_name_iff {node : Node} (hnode : g.nodes[id]? = some node) :
  g.IsDeclared node.name ↔ node.declared = true
  := by
  constructor
  · rintro ⟨id', node', hnode', hname, hdeclared⟩
    have hid : id' = id := HasName.id_eq ⟨node', hnode', hname⟩ ⟨node, hnode, rfl⟩
    rw [hid] at hnode'
    rwa [Option.some.inj (hnode.symm.trans hnode')]
  · intro hdeclared
    use id, node

@[simp]
theorem not_isDeclared_empty :
  ¬ (∅ : Graph).IsDeclared name
  := by
  rintro ⟨id, node, hnode, -⟩
  simp [EmptyCollection.emptyCollection, empty] at hnode

theorem plain_empty :
  (∅ : Graph).Plain
  := by
  intro id node hnode
  simp [EmptyCollection.emptyCollection, empty] at hnode

/-! ### Interning a name -/

/-- What interning a name comes to: the name has a node already, or it is given one at the
end. -/
inductive Interned (g : Graph) (name : String) : Graph → Nat → Prop
  | known {id : Nat} (hid : g.HasName id name) : Interned g name g id
  | added {after : Graph} (hnew : ∀ id, ¬ g.HasName id name)
      (hnodes : after.nodes = g.nodes.push (.mentioned name)) (hfirst : after.first = g.first) :
    Interned g name after g.nodes.size

theorem interned_of_intern (h : g.intern name = (after, id)) :
  Interned g name after id
  := by
  unfold intern at h
  split at h
  · next hindex =>
    cases h
    exact .known (index_eq_some_iff_hasName.1 hindex)
  · next hindex =>
    cases h
    refine .added ?_ rfl rfl
    intro id hid
    rw [index_eq_some_iff_hasName.2 hid] at hindex
    cases hindex

namespace Interned

theorem first (h : Interned g name after id) :
  after.first = g.first
  := by
  cases h with
  | known => rfl
  | added _ _ hfirst => apply hfirst

/-- A node that is there keeps its number and is not changed. -/
theorem getElem?_of_eq_some {node : Node} (h : Interned g name after id)
    (hnode : g.nodes[target]? = some node) :
  after.nodes[target]? = some node
  := by
  cases h with
  | known => apply hnode
  | added _ hnodes =>
    obtain ⟨hlt, -⟩ := Array.getElem?_eq_some_iff.1 hnode
    rw [hnodes, Array.getElem?_push, if_neg (Nat.ne_of_lt hlt), hnode]

/-- A node was there before, or it is the one of the name and says nothing else. -/
theorem eq_some_or_mentioned {node : Node} (h : Interned g name after id)
    (hnode : after.nodes[target]? = some node) :
  g.nodes[target]? = some node ∨ target = id ∧ node = .mentioned name
  := by
  cases h with
  | known => exact .inl hnode
  | added _ hnodes =>
    rw [hnodes, Array.getElem?_push] at hnode
    split at hnode
    · next htarget => exact .inr ⟨htarget, (Option.some.inj hnode).symm⟩
    · exact .inl hnode

theorem hasName (h : Interned g name after id) :
  after.HasName id name
  := by
  cases h with
  | known hid => apply hid
  | added _ hnodes => exact ⟨.mentioned name, by rw [hnodes, Array.getElem?_push_size], rfl⟩

theorem hasName_mono (h : Interned g name after id) (htarget : g.HasName target other) :
  after.HasName target other
  := by
  obtain ⟨node, hnode, hname⟩ := htarget
  exact ⟨node, h.getElem?_of_eq_some hnode, hname⟩

theorem isDeclared_iff (h : Interned g name after id) :
  after.IsDeclared other ↔ g.IsDeclared other
  := by
  constructor
  · rintro ⟨target, node, hnode, hname, hdeclared⟩
    rcases h.eq_some_or_mentioned hnode with hnode | ⟨-, rfl⟩
    · use target, node
    · cases hdeclared
  · rintro ⟨target, node, hnode, hname, hdeclared⟩
    exact ⟨target, node, h.getElem?_of_eq_some hnode, hname, hdeclared⟩

theorem plain (h : Interned g name after id) (hplain : g.Plain) :
  after.Plain
  := by
  intro target node hnode hdeclared
  rcases h.eq_some_or_mentioned hnode with hnode | ⟨-, rfl⟩
  · apply hplain target node hnode hdeclared
  · rfl

/-- A name that has a node is interned without a change. -/
theorem eq_of_hasName (h : Interned g name after id) (hname : g.HasName target name) :
  after = g
  := by
  cases h with
  | known => rfl
  | added hnew => exact absurd hname (hnew target)

end Interned

/-! ### Changing a node -/

section Modify

variable {f : Node → Node} (hnodes : after.nodes = between.nodes.modify target f)

include hnodes

theorem getElem?_of_modify {node : Node} (hnode : after.nodes[id]? = some node) :
  ∃ old, between.nodes[id]? = some old ∧ node = if id = target then f old else old
  := by
  rw [hnodes, Array.getElem?_modify] at hnode
  split at hnode
  · next htarget =>
    obtain ⟨old, hold, rfl⟩ := Option.map_eq_some_iff.1 hnode
    exact ⟨old, hold, (if_pos htarget.symm).symm⟩
  · next htarget => exact ⟨node, hnode, (if_neg (Ne.symm htarget)).symm⟩

theorem modify_getElem? {old : Node} (hold : between.nodes[id]? = some old) :
  after.nodes[id]? = some (if id = target then f old else old)
  := by
  rw [hnodes, Array.getElem?_modify, hold]
  by_cases htarget : target = id
  · rw [if_pos htarget, if_pos htarget.symm, Option.map_some]
  · rw [if_neg htarget, if_neg (Ne.symm htarget)]

theorem hasName_modify (hf : ∀ node, (f node).name = node.name)
    (h : between.HasName id name) :
  after.HasName id name
  := by
  obtain ⟨old, hold, rfl⟩ := h
  refine ⟨_, modify_getElem? hnodes hold, ?_⟩
  split
  · apply hf
  · rfl

theorem isDeclared_modify (hname : ∀ node, (f node).name = node.name)
    (hdeclared : ∀ node, (f node).declared = node.declared) :
  after.IsDeclared other ↔ between.IsDeclared other
  := by
  constructor
  · rintro ⟨id, node, hnode, hother, hdecl⟩
    obtain ⟨old, hold, rfl⟩ := getElem?_of_modify hnodes hnode
    refine ⟨id, old, hold, ?_, ?_⟩
    · rw [← hother]
      split <;> simp [hname]
    · rw [← hdecl]
      split <;> simp [hdeclared]
  · rintro ⟨id, old, hold, hother, hdecl⟩
    refine ⟨id, _, modify_getElem? hnodes hold, ?_, ?_⟩
    · rw [← hother]
      split <;> simp [hname]
    · rw [← hdecl]
      split <;> simp [hdeclared]

end Modify

/-! ### Declaring a name -/

/-- What declaring a name comes to: it is declared already, or its node is marked. -/
inductive Declaring (g : Graph) (name : String) :
    Graph × Except DuplicateTarget Nat → Prop
  | refused (hdeclared : g.IsDeclared name) : Declaring g name (g, .error ⟨name⟩)
  | done {between after : Graph} {id : Nat} (hdeclared : ¬ g.IsDeclared name)
      (hinterned : Interned g name between id)
      (hnodes : after.nodes = between.nodes.modify id ({ · with declared := true }))
      (hfirst : after.first = g.first.or (some id)) :
    Declaring g name (after, .ok id)

theorem nodes_settleFirst (g : Graph) (id : Nat) :
  (g.settleFirst id).nodes = g.nodes
  := by
  unfold settleFirst
  split
  · rfl
  · split <;> rfl

theorem first_settleFirst (h : id < g.nodes.size) :
  (g.settleFirst id).first = g.first.or (some id)
  := by
  unfold settleFirst
  split
  · next hfirst => simp [hfirst]
  · next hfirst => simp [hfirst, h]

theorem declaring_declare (g : Graph) (name : String) :
  Declaring g name (g.declare name)
  := by
  unfold declare
  cases h : g.intern name with | mk between id =>
  have hinterned := interned_of_intern h
  dsimp only
  obtain ⟨node, hnode, rfl⟩ := hinterned.hasName
  have hdeclared : g.IsDeclared node.name ↔ node.declared = true := by
    rw [← hinterned.isDeclared_iff, isDeclared_name_iff hnode]
  by_cases hnow : node.declared = true
  · have hbetween : between = g := by
      obtain ⟨id', node', hnode', hname', -⟩ := hdeclared.2 hnow
      apply hinterned.eq_of_hasName ⟨node', hnode', hname'⟩
    rw [if_pos (by simp [hnode, hnow]), hbetween]
    exact .refused (hdeclared.2 hnow)
  · rw [if_neg (by simp [hnode, hnow])]
    refine .done (mt hdeclared.1 hnow) hinterned (nodes_settleFirst _ _) ?_
    rw [first_settleFirst, ← hinterned.first]
    · rfl
    · rw [changeNode, Array.size_modify]
      apply hinterned.hasName.lt_size

namespace Declaring

theorem not_isDeclared (h : Declaring g name (after, .ok id)) :
  ¬ g.IsDeclared name
  := by
  cases h with
  | done hdeclared => apply hdeclared

theorem eq_of_error {e : DuplicateTarget} (h : Declaring g name (after, .error e)) :
  e = ⟨name⟩ ∧ g.IsDeclared name
  := by
  cases h with
  | refused hdeclared => exact ⟨rfl, hdeclared⟩

/-- The name is declared, and no other name becomes so. -/
theorem isDeclared_iff (h : Declaring g name (after, .ok id)) :
  after.IsDeclared other ↔ g.IsDeclared other ∨ other = name
  := by
  cases h with
  | done _ hinterned hnodes =>
    rw [← hinterned.isDeclared_iff]
    constructor
    · rintro ⟨id', node, hnode, rfl, hdeclared⟩
      obtain ⟨old, hold, rfl⟩ := getElem?_of_modify hnodes hnode
      by_cases hid : id' = id
      · right
        rw [if_pos hid]
        apply HasName.name_eq ⟨old, hold, rfl⟩ (hid ▸ hinterned.hasName)
      · left
        rw [if_neg hid] at hdeclared ⊢
        exact ⟨id', old, hold, rfl, hdeclared⟩
    · rintro (⟨id', old, hold, rfl, hdeclared⟩ | rfl)
      · refine ⟨id', _, modify_getElem? hnodes hold, ?_, ?_⟩
        · split <;> rfl
        · split
          · rfl
          · apply hdeclared
      · obtain ⟨old, hold, rfl⟩ := hinterned.hasName
        refine ⟨id, _, modify_getElem? hnodes hold, ?_, ?_⟩ <;> rw [if_pos rfl]

theorem plain (h : Declaring g name (after, .ok id)) (hplain : g.Plain) :
  after.Plain
  := by
  cases h with
  | done _ hinterned hnodes =>
    intro id' node hnode hdeclared
    obtain ⟨old, hold, rfl⟩ := getElem?_of_modify hnodes hnode
    split at hdeclared
    · cases hdeclared
    · next hid =>
      rw [if_neg hid]
      apply hinterned.plain hplain id' old hold hdeclared

theorem first (h : Declaring g name (after, .ok id)) :
  after.first = g.first.or (some id)
  := by
  cases h with
  | done _ _ _ hfirst => apply hfirst

theorem hasName (h : Declaring g name (after, .ok id)) :
  after.HasName id name
  := by
  cases h with
  | done _ hinterned hnodes => apply hasName_modify hnodes (fun _ => rfl) hinterned.hasName

theorem hasName_mono {target : Nat} (h : Declaring g name (after, .ok id))
    (htarget : g.HasName target other) :
  after.HasName target other
  := by
  cases h with
  | done _ hinterned hnodes =>
    apply hasName_modify hnodes (fun _ => rfl) (hinterned.hasName_mono htarget)

/-- A node that is declared in a plain graph has no dependencies yet. -/
theorem exists_node (h : Declaring g name (after, .ok id)) (hplain : g.Plain) :
  ∃ node : Node, after.nodes[id]? = some node ∧ node.name = name ∧ node.declared = true
    ∧ node.dependencies = #[]
  := by
  cases h with
  | done hdeclared hinterned hnodes =>
    obtain ⟨old, hold, rfl⟩ := hinterned.hasName
    refine ⟨{ old with declared := true }, ?_, rfl, rfl, ?_⟩
    · rw [modify_getElem? hnodes hold, if_pos rfl]
    · apply hinterned.plain hplain id old hold
      rw [← hinterned.isDeclared_iff, isDeclared_name_iff hold] at hdeclared
      simpa using hdeclared

end Declaring

/-! ### Adding a dependency -/

/-- What adding a dependency to a node comes to: the node has it already, or its number is
put at the end of the dependencies of the node. -/
inductive Depending (g : Graph) (target : Nat) (dependency : String) :
    Graph × Except DuplicateDependency Nat → Prop
  | refused {node : Node} {id : Nat} (hnode : g.nodes[target]? = some node)
      (hid : g.HasName id dependency) (hmem : id ∈ node.dependencies) :
    Depending g target dependency (g, .error ⟨node.name, dependency⟩)
  | done {between after : Graph} {node : Node} {id : Nat} (hnode : g.nodes[target]? = some node)
      (hinterned : Interned g dependency between id) (hmem : id ∉ node.dependencies)
      (hnodes : after.nodes = between.nodes.modify target fun node =>
        { node with dependencies := node.dependencies.push id })
      (hfirst : after.first = g.first) :
    Depending g target dependency (after, .ok id)

theorem depending_depend {node : Node} (dependency : String)
    (hnode : g.nodes[target]? = some node) :
  Depending g target dependency (g.depend target dependency)
  := by
  unfold depend
  cases h : g.intern dependency with | mk between id =>
  have hinterned := interned_of_intern h
  simp only [hinterned.getElem?_of_eq_some hnode]
  by_cases hmem : id ∈ node.dependencies
  · -- A new node has a number too large for a dependency.
    have hid : g.HasName id dependency := by
      cases hinterned with
      | known hid => apply hid
      | added => exact absurd (g.dependency_lt target node hnode _ hmem) (Nat.lt_irrefl _)
    rw [if_pos (by simpa using hmem), hinterned.eq_of_hasName hid]
    exact .refused hnode hid hmem
  · rw [if_neg (by simpa using hmem), dif_pos hinterned.hasName.lt_size]
    exact .done hnode hinterned hmem rfl hinterned.first

namespace Depending

variable {dependency : String}

theorem isDeclared_iff (h : Depending g target dependency (after, .ok id)) :
  after.IsDeclared name ↔ g.IsDeclared name
  := by
  cases h with
  | done _ hinterned _ hnodes =>
    rw [isDeclared_modify hnodes (fun _ => rfl) (fun _ => rfl), hinterned.isDeclared_iff]

theorem first (h : Depending g target dependency (after, .ok id)) :
  after.first = g.first
  := by
  cases h with
  | done _ _ _ _ hfirst => apply hfirst

theorem hasName_mono {other : Nat} (h : Depending g target dependency (after, .ok id))
    (hother : g.HasName other name) :
  after.HasName other name
  := by
  cases h with
  | done _ hinterned _ hnodes =>
    apply hasName_modify hnodes (fun _ => rfl) (hinterned.hasName_mono hother)

/-- A dependency of a declared node leaves a graph plain. -/
theorem plain {node : Node} (h : Depending g target dependency (after, .ok id))
    (hnode : g.nodes[target]? = some node) (hdeclared : node.declared = true)
    (hplain : g.Plain) :
  after.Plain
  := by
  cases h with
  | done _ hinterned _ hnodes =>
    intro id' node' hnode' hdeclared'
    obtain ⟨old, hold, rfl⟩ := getElem?_of_modify hnodes hnode'
    by_cases hid : id' = target
    · rw [hid, hinterned.getElem?_of_eq_some hnode] at hold
      cases hold
      rw [if_pos hid] at hdeclared'
      cases hdeclared.symm.trans hdeclared'
    · rw [if_neg hid] at hdeclared' ⊢
      apply hinterned.plain hplain id' old hold hdeclared'

/-- Given the names of the dependencies of the node, those it has afterwards: the name is new,
and comes last. -/
theorem exists_node {node : Node} {names : List String}
    (h : Depending g target dependency (after, .ok id)) (hnode : g.nodes[target]? = some node)
    (hnames : List.Forall₂ g.HasName node.dependencies.toList names) :
  dependency ∉ names ∧ ∃ next : Node, after.nodes[target]? = some next
    ∧ next.name = node.name ∧ next.declared = node.declared
    ∧ List.Forall₂ after.HasName next.dependencies.toList (names ++ [dependency])
  := by
  cases h with
  | @done between _ old _ hold hinterned hmem hnodes =>
    cases hnode.symm.trans hold
    have hnames : List.Forall₂ between.HasName node.dependencies.toList names :=
      hnames.imp fun _ _ => hinterned.hasName_mono
    have hmono : ∀ a b, between.HasName a b → after.HasName a b := fun _ _ =>
      hasName_modify hnodes fun _ => rfl
    refine ⟨?_, _, modify_getElem? hnodes (hinterned.getElem?_of_eq_some hnode), ?_⟩
    · rwa [← mem_iff_of_hasName hinterned.hasName hnames]
    · rw [if_pos rfl, Array.toList_push]
      refine ⟨rfl, rfl, ?_⟩
      apply List.rel_append (hnames.imp hmono)
      exact .cons (hmono _ _ hinterned.hasName) .nil

/-- A dependency is refused only if the node has it. -/
theorem eq_of_error {node : Node} {names : List String} {e : DuplicateDependency}
    (h : Depending g target dependency (after, .error e)) (hnode : g.nodes[target]? = some node)
    (hnames : List.Forall₂ g.HasName node.dependencies.toList names) :
  e = ⟨node.name, dependency⟩ ∧ dependency ∈ names
  := by
  cases h with
  | refused hold hid hmem =>
    cases hnode.symm.trans hold
    exact ⟨rfl, (mem_iff_of_hasName hid hnames).1 hmem⟩

end Depending

/-! ### Adding a command -/

theorem nodes_addCommand (g : Graph) (target : Nat) (command : String) :
  (g.addCommand target command).nodes = g.nodes.modify target fun node =>
    { node with commands := node.commands.push command }
  := rfl

@[simp]
theorem first_addCommand (g : Graph) (target : Nat) (command : String) :
  (g.addCommand target command).first = g.first
  := rfl

theorem isDeclared_addCommand (command : String) :
  (g.addCommand target command).IsDeclared name ↔ g.IsDeclared name
  := isDeclared_modify (nodes_addCommand g target command) (fun _ => rfl) (fun _ => rfl)

theorem plain_addCommand (command : String) (h : g.Plain) :
  (g.addCommand target command).Plain
  := by
  intro id node hnode hdeclared
  obtain ⟨old, hold, rfl⟩ := getElem?_of_modify (nodes_addCommand g target command) hnode
  have := h id old hold
  split at hdeclared <;> simp_all

end IncrementalBuild.Graph
