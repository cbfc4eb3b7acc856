import IncrementalBuild.Proofs.Graph.Operation
import Mathlib.Data.List.Nodup

/-!
# The graph of a list of blocks

A `Block` is a target, the names of its dependencies, and its commands.  A graph `Records`
blocks if it is the graph of them and of nothing else: each block has a node that is
declared, with the dependencies and the commands of the block in their order; a name that is
the target of no block has been mentioned and no more; the nodes are numbered in the order in
which the blocks first mention their names, each its target and then its dependencies; and
the node declared first is that of the first block.

The operations on graphs let a list of blocks grow at its end: declaring a name begins a
block, and adding a dependency or a command goes on with the last one.
-/

namespace IncrementalBuild

/-- A target, the names of its dependencies, and its commands. -/
structure Block where
  target : String
  dependencies : List String
  commands : List String
deriving DecidableEq, Repr

/-- The names that a block mentions, its target first. -/
def Block.mentions (block : Block) : List String :=
  block.target :: block.dependencies

/-- The targets of blocks. -/
abbrev Block.targets (blocks : List Block) : List String :=
  blocks.map Block.target

namespace Graph

variable {g between after : Graph} {blocks : List Block} {block old new : Block} {node : Node}
  {name dependency : String} {id target : Nat}

/-- The names of the nodes, in the order of their numbers. -/
def names (g : Graph) : List String :=
  g.nodes.toList.map (·.name)

/-- A node is declared, has the name of a block, its dependencies and its commands. -/
structure Realizes (g : Graph) (block : Block) (node : Node) : Prop where
  name : node.name = block.target
  declared : node.declared = true
  dependencies : List.Forall₂ g.HasName node.dependencies.toList block.dependencies
  commands : node.commands.toList = block.commands

/-- Every block has a node, whatever else is mentioned is not declared and has nothing, and the
first block is the one declared first. -/
structure Carries (g : Graph) (blocks : List Block) : Prop where
  nodup : (Block.targets blocks).Nodup
  realized : ∀ block ∈ blocks, ∃ (id : Nat) (node : Node),
    g.nodes[id]? = some node ∧ g.Realizes block node
  mentioned : ∀ (id : Nat) (node : Node), g.nodes[id]? = some node →
    node.name ∉ Block.targets blocks → node = .mentioned node.name
  first : Option.Rel g.HasName g.first (Block.targets blocks).head?

/-- The graph of blocks: it carries them, and its nodes are numbered in the order in which
the blocks first mention their names. -/
structure Records (g : Graph) (blocks : List Block) : Prop extends Carries g blocks where
  names : g.names = (blocks.flatMap Block.mentions).eraseDups

/-! ### The names in the order of their numbers -/

theorem hasName_iff_getElem?_names :
  g.HasName id name ↔ g.names[id]? = some name
  := by simp [HasName, names]

theorem mem_names_iff :
  name ∈ g.names ↔ ∃ id, g.HasName id name
  := by simp [hasName_iff_getElem?_names, List.mem_iff_getElem?]

theorem name_mem_names (g : Graph) (node : g.Id) :
  g.name node ∈ g.names
  := mem_names_iff.2 ⟨node, _, Array.getElem?_eq_getElem (g.id_lt_size node), rfl⟩

theorem Interned.names_eq (h : Interned g name after id) :
  after.names = if name ∈ g.names then g.names else g.names ++ [name]
  := by
  cases h with
  | known hid => rw [if_pos (mem_names_iff.2 ⟨id, hid⟩)]
  | added hnew hnodes =>
    rw [if_neg fun hmem => (mem_names_iff.1 hmem).elim hnew]
    simp [names, hnodes, Node.mentioned]

theorem names_modify {f : Node → Node} (hnodes : after.nodes = between.nodes.modify target f)
    (hf : ∀ node, (f node).name = node.name) :
  after.names = between.names
  := by
  apply List.ext_getElem?
  intro id
  simp only [names, hnodes, List.getElem?_map, Array.getElem?_toList, Array.getElem?_modify]
  split
  · cases between.nodes[id]? <;> simp [hf]
  · rfl

/-- One more name is new, and comes last, or it is there already. -/
theorem eraseDups_snoc (names : List String) (name : String) :
  (names ++ [name]).eraseDups
    = if name ∈ names.eraseDups then names.eraseDups else names.eraseDups ++ [name]
  := by
  rw [List.eraseDups_append]
  by_cases hmem : name ∈ names
  · simp [List.removeAll, List.mem_eraseDups, hmem]
  · simp [List.removeAll, List.mem_eraseDups, hmem, List.eraseDups_cons]

/-- A name that is interned is mentioned after the others. -/
theorem Interned.names_eq_eraseDups {mentions : List String} (h : Interned g name after id)
    (hnames : g.names = mentions.eraseDups) :
  after.names = (mentions ++ [name]).eraseDups
  := by rw [h.names_eq, eraseDups_snoc, hnames]

/-! ### Carrying blocks -/

theorem Realizes.mono (h : g.Realizes block node)
    (hmono : ∀ id name, g.HasName id name → after.HasName id name) :
  after.Realizes block node
  := ⟨h.name, h.declared, h.dependencies.imp hmono, h.commands⟩

theorem rel_hasName_mono {first : Option Nat} {name? : Option String}
    (hmono : ∀ id name, g.HasName id name → after.HasName id name)
    (h : Option.Rel g.HasName first name?) :
  Option.Rel after.HasName first name?
  := by
  cases h with
  | some hname => exact .some (hmono _ _ hname)
  | none => exact .none

namespace Carries

theorem isDeclared_iff (h : g.Carries blocks) :
  g.IsDeclared name ↔ name ∈ Block.targets blocks
  := by
  constructor
  · rintro ⟨id, node, hnode, rfl, hdeclared⟩
    by_contra hnot
    rw [h.mentioned id node hnode hnot] at hdeclared
    cases hdeclared
  · intro hmem
    obtain ⟨block, hblock, rfl⟩ := List.mem_map.1 hmem
    obtain ⟨id, node, hnode, hrealizes⟩ := h.realized block hblock
    exact ⟨id, node, hnode, hrealizes.name, hrealizes.declared⟩

/-- The node of a block, found by the name of its target. -/
theorem realizes_of_hasName (h : g.Carries blocks) (hblock : block ∈ blocks)
    (hnode : g.nodes[id]? = some node) (hname : node.name = block.target) :
  g.Realizes block node
  := by
  obtain ⟨other, found, hfound, hrealizes⟩ := h.realized block hblock
  obtain rfl : other = id :=
    HasName.id_eq ⟨found, hfound, hrealizes.name⟩ ⟨node, hnode, hname⟩
  rw [Option.some.inj (hnode.symm.trans hfound)]
  exact hrealizes

/-- Interning a name adds nothing but a name. -/
theorem intern (h : g.Carries blocks) (hinterned : Interned g name after id) :
  after.Carries blocks
  := by
  have hmono : ∀ id name, g.HasName id name → after.HasName id name := fun _ _ =>
    hinterned.hasName_mono
  constructor
  case nodup => exact h.nodup
  case realized =>
    intro block hblock
    obtain ⟨other, node, hnode, hrealizes⟩ := h.realized block hblock
    exact ⟨other, node, hinterned.getElem?_of_eq_some hnode, hrealizes.mono hmono⟩
  case mentioned =>
    intro other node hnode hnot
    rcases hinterned.eq_some_or_mentioned hnode with hold | ⟨-, rfl⟩
    · exact h.mentioned other node hold hnot
    · rfl
  case first =>
    rw [hinterned.first]
    exact rel_hasName_mono hmono h.first

/-- A change to one node that makes it the node of a block puts this block behind others which
are carried, if no other block or one of the same target stood in its place. -/
theorem put {before : List Block} {f : Node → Node} (h : between.Carries before)
    (hblocks : ∀ block ∈ blocks, block ∈ before)
    (hbefore : ∀ name ∈ Block.targets before, name ∈ Block.targets (blocks ++ [new]))
    (hnodup : (Block.targets (blocks ++ [new])).Nodup)
    (htarget : between.HasName target new.target)
    (hnodes : after.nodes = between.nodes.modify target f)
    (hf : ∀ node, (f node).name = node.name)
    (hnew : ∀ node, between.nodes[target]? = some node → between.Realizes new (f node))
    (hfirst : Option.Rel between.HasName after.first (Block.targets (blocks ++ [new])).head?) :
  after.Carries (blocks ++ [new])
  := by
  have hmono : ∀ id name, between.HasName id name → after.HasName id name := fun _ _ =>
    hasName_modify hnodes hf
  have hmem : new.target ∈ Block.targets (blocks ++ [new]) :=
    List.mem_map_of_mem (List.mem_append_right _ List.mem_cons_self)
  constructor
  case nodup => exact hnodup
  case realized =>
    intro block hblock
    rcases List.mem_append.1 hblock with hblock | hblock
    · obtain ⟨other, node, hnode, hrealizes⟩ := h.realized block (hblocks block hblock)
      refine ⟨other, _, modify_getElem? hnodes hnode, ?_⟩
      -- the targets differ, so this is not the node that is changed
      have hne : other ≠ target := by
        rintro rfl
        have hname : block.target = new.target :=
          HasName.name_eq ⟨node, hnode, hrealizes.name⟩ htarget
        rw [Block.targets, List.map_append] at hnodup
        apply List.disjoint_of_nodup_append hnodup (List.mem_map_of_mem hblock)
        rw [hname]
        exact List.mem_cons_self
      rw [if_neg hne]
      exact hrealizes.mono hmono
    · rw [List.mem_singleton.1 hblock]
      obtain ⟨node, hnode, hname⟩ := htarget
      refine ⟨target, _, modify_getElem? hnodes hnode, ?_⟩
      rw [if_pos rfl]
      exact (hnew node hnode).mono hmono
  case mentioned =>
    intro other node hnode hnot
    obtain ⟨found, hfound, rfl⟩ := getElem?_of_modify hnodes hnode
    split at hnot
    · next heq =>
      rw [hf, HasName.name_eq ⟨found, heq ▸ hfound, rfl⟩ htarget] at hnot
      exact absurd hmem hnot
    · next hne =>
      rw [if_neg hne]
      exact h.mentioned other found hfound (mt (hbefore _) hnot)
  case first => exact rel_hasName_mono hmono hfirst

/-- A change to the node of the last block that makes it the node of another block of the same
target puts this block in the place of the last one. -/
theorem amend {f : Node → Node} (h : between.Carries (blocks ++ [old]))
    (htarget : between.HasName target old.target) (heq : new.target = old.target)
    (hnodes : after.nodes = between.nodes.modify target f) (hfirst : after.first = between.first)
    (hf : ∀ node, (f node).name = node.name)
    (hnew : ∀ node, between.Realizes old node → between.Realizes new (f node)) :
  after.Carries (blocks ++ [new])
  := by
  have htargets : Block.targets (blocks ++ [new]) = Block.targets (blocks ++ [old]) := by
    simp [heq]
  apply h.put (fun _ => List.mem_append_left _) _ _ (heq ▸ htarget) hnodes hf
  · intro node hnode
    apply hnew
    apply h.realizes_of_hasName (List.mem_append_right _ List.mem_cons_self) hnode
    exact HasName.name_eq ⟨node, hnode, rfl⟩ htarget
  · rw [hfirst, htargets]
    exact h.first
  · rw [htargets]
    exact fun _ hname => hname
  · rw [htargets]
    exact h.nodup

end Carries

/-! ### Recording blocks -/

theorem records_empty :
  (∅ : Graph).Records []
  := by
  refine ⟨⟨List.nodup_nil, by simp, ?_, .none⟩, rfl⟩
  intro id node hnode
  simp [EmptyCollection.emptyCollection, empty] at hnode

namespace Records

/-- Declaring a name begins a block. -/
theorem declare (h : g.Records blocks) (hdeclaring : Declaring g name (after, .ok id)) :
  after.Records (blocks ++ [⟨name, [], []⟩]) ∧ after.HasName id name
  := by
  cases hdeclaring with
  | @done between _ _ hdeclared hinterned hnodes hfirst =>
    have hbetween := h.toCarries.intern hinterned
    have hnew : name ∉ Block.targets blocks := mt h.isDeclared_iff.2 hdeclared
    refine ⟨⟨?_, ?_⟩, hasName_modify hnodes (fun _ => rfl) hinterned.hasName⟩
    · apply hbetween.put (fun _ hblock => hblock) _ _ hinterned.hasName hnodes (fun _ => rfl)
      · intro node hnode
        have hname : node.name = name :=
          HasName.name_eq ⟨node, hnode, rfl⟩ hinterned.hasName
        rw [hbetween.mentioned id node hnode (hname ▸ hnew), hname]
        exact ⟨rfl, rfl, .nil, rfl⟩
      · have hold := hbetween.first
        rw [hinterned.first] at hold
        rw [hfirst]
        generalize g.first = first at hold
        cases blocks with
        | nil =>
          cases hold
          exact .some hinterned.hasName
        | cons block rest =>
          cases hold with
          | some hname => exact .some hname
      · simp +contextual
      · rw [Block.targets, List.map_append, List.nodup_append_comm]
        exact h.nodup.cons hnew
    · rw [names_modify hnodes (fun _ => rfl), hinterned.names_eq_eraseDups h.names]
      simp [Block.mentions]

/-- Adding a dependency to the target of the last block goes on with the block. -/
theorem depend {dependencies commands : List String}
    (h : g.Records (blocks ++ [⟨name, dependencies, commands⟩])) (htarget : g.HasName target name)
    (hdepending : Depending g target dependency (after, .ok id)) :
  after.Records (blocks ++ [⟨name, dependencies ++ [dependency], commands⟩])
    ∧ after.HasName target name
  := by
  cases hdepending with
  | @done between _ _ _ _ hinterned _ hnodes hfirst =>
    have hbetween := hinterned.hasName_mono htarget
    refine ⟨⟨?_, ?_⟩, hasName_modify hnodes (fun _ => rfl) hbetween⟩
    · refine (h.toCarries.intern hinterned).amend hbetween rfl hnodes ?_ (fun _ => rfl) ?_
      · rw [hfirst, hinterned.first]
      · intro node hnode
        refine ⟨hnode.name, hnode.declared, ?_, hnode.commands⟩
        rw [Array.toList_push]
        exact List.rel_append hnode.dependencies (.cons hinterned.hasName .nil)
    · rw [names_modify hnodes (fun _ => rfl), hinterned.names_eq_eraseDups h.names]
      simp [Block.mentions]

/-- Adding a command to the target of the last block goes on with the block. -/
theorem addCommand {dependencies commands : List String} (command : String)
    (h : g.Records (blocks ++ [⟨name, dependencies, commands⟩]))
    (htarget : g.HasName target name) :
  (g.addCommand target command).Records (blocks ++ [⟨name, dependencies, commands ++ [command]⟩])
    ∧ (g.addCommand target command).HasName target name
  := by
  have hnodes := nodes_addCommand g target command
  refine ⟨⟨?_, ?_⟩, hasName_modify hnodes (fun _ => rfl) htarget⟩
  · refine h.toCarries.amend htarget rfl hnodes (first_addCommand g target command)
      (fun _ => rfl) ?_
    intro node hnode
    refine ⟨hnode.name, hnode.declared, hnode.dependencies, ?_⟩
    rw [Array.toList_push, hnode.commands]
  · rw [names_modify hnodes (fun _ => rfl), h.names]
    simp [Block.mentions]

/-- The names that are not declared are those of the dependencies that are no targets. -/
theorem mem_names_and_not_isDeclared_iff (h : g.Records blocks) :
  name ∈ g.names ∧ ¬ g.IsDeclared name ↔
    (∃ block ∈ blocks, name ∈ block.dependencies) ∧ name ∉ Block.targets blocks
  := by
  rw [h.isDeclared_iff, h.names, List.mem_eraseDups, List.mem_flatMap]
  apply and_congr_left
  intro hnot
  apply exists_congr
  intro block
  apply and_congr_right
  intro hblock
  have hne : name ≠ block.target := by
    rintro rfl
    exact hnot (List.mem_map_of_mem hblock)
  rw [Block.mentions, List.mem_cons, or_iff_right hne]

end Records

end Graph

end IncrementalBuild
