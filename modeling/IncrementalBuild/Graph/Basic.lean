import Std.Data.HashMap

/-!
# Dependency graphs

A graph has a node for every name a build file mentions.  A node that stands on the left
of a rule is declared; it has dependencies, which are nodes again, and commands, both in
the order in which they were added.  Nodes are numbered in the order in which their names
were first mentioned, and nothing is ever removed, so a number stays valid.  `Graph.first`
is the declared node declared first.

Every operation returns the graph it leaves behind, also when it fails.
-/

namespace IncrementalBuild

/-- A node of a graph. -/
structure Node where
  name : String
  declared : Bool
  dependencies : Array Nat
  commands : Array String
deriving DecidableEq, Repr

/-- The node of a name that has only been mentioned. -/
def Node.mentioned (name : String) : Node :=
  ⟨name, false, #[], #[]⟩

/-- A dependency graph: `index` finds the number of each name, and a dependency is the
number of a node. -/
structure Graph where
  index : Std.HashMap String Nat
  nodes : Array Node
  first : Option Nat
  index_eq_some_iff :
    ∀ (name : String) (id : Nat),
      index[name]? = some id ↔ ∃ node : Node, nodes[id]? = some node ∧ node.name = name
  dependency_lt :
    ∀ (id : Nat) (node : Node),
      nodes[id]? = some node → ∀ dependency ∈ node.dependencies, dependency < nodes.size
  first_lt : ∀ id : Nat, first = some id → id < nodes.size

/-- A name is declared a second time. -/
structure DuplicateTarget where
  name : String
deriving DecidableEq, Repr

/-- A dependency is added to a node a second time. -/
structure DuplicateDependency where
  target : String
  dependency : String
deriving DecidableEq, Repr

/-- What is wrong, in words. -/
def DuplicateTarget.message (e : DuplicateTarget) : String :=
  "`" ++ e.name ++ "` is already declared as a target"

/-- What is wrong, in words. -/
def DuplicateDependency.message (e : DuplicateDependency) : String :=
  "`" ++ e.target ++ "` already depends on `" ++ e.dependency ++ "`"

namespace Graph

/-- The graph without nodes. -/
def empty : Graph where
  index := ∅
  nodes := #[]
  first := none
  index_eq_some_iff := by simp
  dependency_lt := by simp
  first_lt := by simp

instance : Inhabited Graph := ⟨empty⟩

instance : EmptyCollection Graph := ⟨empty⟩

/-- The number of nodes. -/
def size (g : Graph) : Nat :=
  g.nodes.size

/-- The number of a node of `g`. -/
abbrev Id (g : Graph) : Type :=
  Fin g.size

/-- The number of a node is less than the number of nodes. -/
theorem id_lt_size (g : Graph) (id : g.Id) :
  id.val < g.size
  := id.isLt

/-- The node with a given number. -/
def node (g : Graph) (id : g.Id) : Node :=
  have h : id.val < g.nodes.size := g.id_lt_size id
  g.nodes[id.val]

/-- The name of a node. -/
def name (g : Graph) (id : g.Id) : String :=
  (g.node id).name

/-- The dependencies of a node, in the order in which they were added. -/
def dependencies (g : Graph) (id : g.Id) : List g.Id :=
  (g.node id).dependencies.toList.attach.map fun dependency =>
    ⟨dependency.val,
      g.dependency_lt id.val (g.node id) (Array.getElem?_eq_getElem (g.id_lt_size id))
        dependency.val (Array.mem_toList_iff.1 dependency.property)⟩

/-- The number of a name. -/
def find? (g : Graph) (name : String) : Option g.Id :=
  match h : g.index[name]? with
  | none => none
  | some id =>
    some ⟨id, by
      obtain ⟨node, hnode, -⟩ := (g.index_eq_some_iff name id).1 h
      obtain ⟨hlt, -⟩ := Array.getElem?_eq_some_iff.1 hnode
      exact hlt⟩

/-- The node to build when no target is asked for by name: the one declared first. -/
def first? (g : Graph) : Option g.Id :=
  match h : g.first with
  | none => none
  | some id => some ⟨id, g.first_lt id h⟩

/-- The number of declared nodes. -/
def declaredCount (g : Graph) : Nat :=
  g.nodes.countP (·.declared)

/-! ### Building a graph -/

/-- The graph with a new node for a name it does not mention. -/
def pushNode (g : Graph) (name : String) (h : g.index[name]? = none) : Graph where
  index := g.index.insert name g.nodes.size
  nodes := g.nodes.push (.mentioned name)
  first := g.first
  index_eq_some_iff := by
    intro other id
    rw [Std.HashMap.getElem?_insert, Array.getElem?_push]
    have hother := g.index_eq_some_iff other id
    have hnew := g.index_eq_some_iff name id
    by_cases hid : id = g.nodes.size
    · subst hid
      by_cases hname : name = other
      · simp [hname, Node.mentioned]
      · have : g.index[other]? ≠ some g.nodes.size := by
          rw [ne_eq, hother]
          simp
        simp [hname, Node.mentioned, this]
    · by_cases hname : name = other
      · subst hname
        have hno := mt hnew.2 (by simp [h])
        simp only [beq_self_eq_true, if_true, if_neg hid, Option.some.injEq]
        exact ⟨fun heq => absurd heq.symm hid, fun heq => absurd heq hno⟩
      · simp [hname, hid, hother]
  dependency_lt := by
    intro id node hnode dependency hmem
    rw [Array.getElem?_push] at hnode
    rw [Array.size_push]
    split at hnode
    · cases hnode
      simp [Node.mentioned] at hmem
    · exact Nat.lt_succ_of_lt (g.dependency_lt id node hnode dependency hmem)
  first_lt := by
    intro id hid
    rw [Array.size_push]
    exact Nat.lt_succ_of_lt (g.first_lt id hid)

/-- The number of a name, and the graph in which the name has a node. -/
def intern (g : Graph) (name : String) : Graph × Nat :=
  match h : g.index[name]? with
  | some id => (g, id)
  | none =>
    let id := g.nodes.size
    (g.pushNode name h, id)

/-- The graph with one node changed, in a way that keeps its name. -/
def changeNode (g : Graph) (id : Nat) (f : Node → Node)
    (hname : ∀ node, (f node).name = node.name)
    (hdep : ∀ node, ∀ dependency ∈ (f node).dependencies,
      dependency ∈ node.dependencies ∨ dependency < g.nodes.size) : Graph where
  index := g.index
  nodes := g.nodes.modify id f
  first := g.first
  index_eq_some_iff := by
    intro name other
    rw [g.index_eq_some_iff, Array.getElem?_modify]
    by_cases h : id = other
    · cases hnode : g.nodes[other]? <;> simp [h, hname]
    · simp [h]
  dependency_lt := by
    intro other node hnode dependency hmem
    rw [Array.getElem?_modify] at hnode
    rw [Array.size_modify]
    by_cases h : id = other
    · rw [if_pos h, Option.map_eq_some_iff] at hnode
      obtain ⟨old, hold, rfl⟩ := hnode
      rcases hdep old dependency hmem with hmem | hlt
      · exact g.dependency_lt other old hold dependency hmem
      · exact hlt
    · rw [if_neg h] at hnode
      exact g.dependency_lt other node hnode dependency hmem
  first_lt := by
    intro other h
    rw [Array.size_modify]
    exact g.first_lt other h

/-- The graph whose first declared node is the given one, unless it had one already. -/
def settleFirst (g : Graph) (id : Nat) : Graph :=
  match g.first with
  | some _ => g
  | none =>
    if h : id < g.nodes.size then
      { g with first := some id, first_lt := by intro other hid; cases hid; exact h }
    else
      g

/-- Declares a name, which must not have been declared before; returns its number. -/
def declare (g : Graph) (name : String) : Graph × Except DuplicateTarget Nat :=
  let (g, id) := g.intern name
  if g.nodes[id]?.any (·.declared) then
    (g, .error ⟨name⟩)
  else
    let marked := g.changeNode id ({ · with declared := true }) (by simp) (fun _ _ h => .inl h)
    (marked.settleFirst id, .ok id)

/-- Adds a dependency, given by its name, to a node that must not have it yet; returns the
number of the dependency. -/
def depend (g : Graph) (target : Nat) (dependency : String) :
    Graph × Except DuplicateDependency Nat :=
  let (g, id) := g.intern dependency
  match g.nodes[target]? with
  | none => (g, .ok id)
  | some node =>
    if node.dependencies.contains id then
      (g, .error ⟨node.name, dependency⟩)
    else if h : id < g.nodes.size then
      (g.changeNode target (fun node => { node with dependencies := node.dependencies.push id })
        (by simp)
        (by
          intro node other hother
          rcases Array.mem_push.1 hother with hother | rfl
          · exact .inl hother
          · exact .inr h),
        .ok id)
    else
      (g, .ok id)

/-- Adds a command to a node. -/
def addCommand (g : Graph) (target : Nat) (command : String) : Graph :=
  g.changeNode target (fun node => { node with commands := node.commands.push command })
    (by simp) (fun _ _ h => .inl h)

end Graph

end IncrementalBuild
