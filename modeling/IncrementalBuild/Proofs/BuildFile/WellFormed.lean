import IncrementalBuild.Proofs.BuildFile.BlockForm
import IncrementalBuild.Proofs.Graph.Evolution
import IncrementalBuild.Proofs.Walk.Effect

/-!
# What is read is well formed

A graph that is read from the lines of a build file is `WellFormed`: its names and its commands are
as they can be written, what is not declared has nothing and is needed, there are as many declared
nodes as rules and as many commands as lines that are commands, and the first node is the one to
build.

Most of this follows from the blocks that the graph records.  That no build has marked the graph
follows from the operations that it was made by, which leave no mark: they are the `deeds` of the
blocks, one operation for each target, each dependency and each command in the order of the text.

What is reported of a text that is read are the numbers of its names and of its rules.
-/

namespace IncrementalBuild

/-- The operations by which a graph gets a block, where names have numbers. -/
def Block.deeds (number : String → Nat) (block : Block) : List Deed :=
  .declared block.target (.ok (number block.target)) ::
    block.dependencies.map (fun name => .depended (number block.target) name (.ok (number name)))
      ++ block.commands.map (.commanded (number block.target))

theorem Marks.carry_clear (g after : Graph) :
  (Marks.clear g).carry after = .clear after
  := by
  apply Vector.toArray_inj.1
  have hsize : g.size + (after.size - g.size) = max g.size after.size := by omega
  simp [carry, ofArray, clear, Array.replicate_append_replicate, hsize]

namespace Graph

variable {g after : Graph} {blocks : List Block} {block : Block} {name : String} {id target : Nat}

/-! ### Graphs that are made by the operations of blocks -/

/-- The names of a graph have its numbers. -/
def Numbered (g : Graph) (number : String → Nat) : Prop :=
  ∀ id name, g.HasName id name → number name = id

theorem Numbered.before {deed : Deed} {number : String → Nat} (h : after.Numbered number)
    (hadds : g.Adds deed after) :
  g.Numbered number
  := fun id name hname => h id name (hadds.hasName id name hname)

theorem numbered_idxOf (g : Graph) :
  g.Numbered g.names.idxOf
  := by
  intro id name hname
  rw [hasName_iff_getElem?_names] at hname
  obtain ⟨hlt, rfl⟩ := List.getElem?_eq_some_iff.1 hname
  exact g.nodup_names.idxOf_getElem id hlt

/-- A graph comes from nothing by the operations of blocks, with the numbers that it has for their
names, and there is no mark on it. -/
def Made (blocks : List Block) (g : Graph) : Prop :=
  ∀ number, g.Numbered number →
    Evolves ∅ (.clear ∅) (blocks.flatMap (Block.deeds number)) g (.clear g)

namespace Made

theorem empty :
  Made [] ∅
  := fun _ _ => .rest

theorem declare (h : g.Made blocks) (hdeclare : g.declare name = (after, .ok id)) :
  after.Made (blocks ++ [⟨name, [], []⟩])
  := by
  intro number hnumber
  have hadds := adds_declare g name
  rw [hdeclare] at hadds
  have hevolves := (h number (hnumber.before hadds)).declare name
  rw [hdeclare, Marks.carry_clear] at hevolves
  have hid := hnumber id name (hadds.issued name id rfl)
  simpa [Block.deeds, hid] using hevolves

theorem depend {dependencies : List String} {dependency : String}
    (h : g.Made (blocks ++ [⟨name, dependencies, []⟩])) (hname : g.HasName target name)
    (hdepend : g.depend target dependency = (after, .ok id)) :
  after.Made (blocks ++ [⟨name, dependencies ++ [dependency], []⟩])
  := by
  intro number hnumber
  have hadds := adds_depend g ⟨target, hname.lt_size⟩ dependency
  rw [hdepend] at hadds
  have hevolves := (h number (hnumber.before hadds)).depend ⟨target, hname.lt_size⟩ dependency
  rw [hdepend, Marks.carry_clear] at hevolves
  have htarget := hnumber target name (hadds.hasName target name hname)
  have hid := hnumber id dependency (hadds.issued dependency id rfl)
  simpa [Block.deeds, htarget, hid] using hevolves

theorem addCommand (h : g.Made (blocks ++ [block])) (hname : g.HasName target block.target)
    (command : String) :
  (g.addCommand target command).Made
    (blocks ++ [{ block with commands := block.commands ++ [command] }])
  := by
  intro number hnumber
  have hadds := adds_addCommand g ⟨target, hname.lt_size⟩ command
  have hevolves := (h number (hnumber.before hadds)).addCommand ⟨target, hname.lt_size⟩ command
  rw [Marks.carry_clear] at hevolves
  have htarget := hnumber target block.target (hadds.hasName target block.target hname)
  simpa [Block.deeds, htarget] using hevolves

end Made

/-! ### Counting declared nodes and commands -/

/-- The number of commands. -/
def commandCount (g : Graph) : Nat :=
  (g.nodes.toList.flatMap (·.commands.toList)).length

theorem mem_nodes_iff {node : Node} :
  node ∈ g.nodes.toList ↔ ∃ id : Nat, g.nodes[id]? = some node
  := by rw [Array.mem_toList_iff, Array.mem_iff_getElem?]

/-- The declared nodes are those of the blocks, with their commands. -/
theorem Carries.perm_declared (h : g.Carries blocks) :
  ((g.nodes.toList.filter (·.declared)).map fun node => (node.name, node.commands.toList)).Perm
    (blocks.map fun block => (block.target, block.commands))
  := by
  rw [List.perm_ext_iff_of_nodup]
  · rintro ⟨name, commands⟩
    simp only [List.mem_map, List.mem_filter, Prod.mk.injEq]
    constructor
    · rintro ⟨node, ⟨hmem, hdeclared⟩, rfl, rfl⟩
      obtain ⟨id, hnode⟩ := mem_nodes_iff.1 hmem
      have htarget := h.isDeclared_iff.1 ⟨id, node, hnode, rfl, hdeclared⟩
      obtain ⟨block, hblock, hname⟩ := List.mem_map.1 htarget
      exact ⟨block, hblock, hname, (h.realizes_of_hasName hblock hnode hname.symm).commands.symm⟩
    · rintro ⟨block, hblock, rfl, rfl⟩
      obtain ⟨id, node, hnode, hrealizes⟩ := h.realized block hblock
      exact ⟨node, ⟨mem_nodes_iff.2 ⟨id, hnode⟩, hrealizes.declared⟩, hrealizes.name,
        hrealizes.commands⟩
  · apply List.Nodup.of_map Prod.fst
    rw [List.map_map]
    exact (List.filter_sublist.map _).nodup g.nodup_names
  · apply List.Nodup.of_map Prod.fst
    rw [List.map_map]
    exact h.nodup

theorem Carries.declaredCount_eq (h : g.Carries blocks) :
  g.declaredCount = blocks.length
  := by
  have hlength := h.perm_declared.length_eq
  rwa [List.length_map, List.length_map, ← List.countP_eq_length_filter, Array.countP_toList]
    at hlength

/-- A node is that of a block, or has nothing but its name. -/
theorem Carries.node_cases (h : g.Carries blocks) (id : g.Id) :
  (∃ block ∈ blocks, g.Realizes block (g.node id)) ∨ g.node id = .mentioned (g.name id)
  := by
  have hnode : g.nodes[id.val]? = some (g.node id) := Array.getElem?_eq_getElem id.isLt
  by_cases hmem : g.name id ∈ Block.targets blocks
  · obtain ⟨block, hblock, hname⟩ := List.mem_map.1 hmem
    exact .inl ⟨block, hblock, h.realizes_of_hasName hblock hnode hname.symm⟩
  · exact .inr (h.mentioned id _ hnode hmem)

theorem Carries.node_eq_mentioned (h : g.Carries blocks) (id : g.Id)
    (hdeclared : (g.node id).declared = false) :
  g.node id = .mentioned (g.name id)
  := by
  rcases h.node_cases id with ⟨block, -, hrealizes⟩ | hmentioned
  · cases hdeclared.symm.trans hrealizes.declared
  · exact hmentioned

/-- Nodes that are not declared have no commands, so the commands are those of the blocks. -/
theorem Carries.commandCount_eq (h : g.Carries blocks) :
  g.commandCount = (blocks.flatMap Block.commands).length
  := by
  have hsum := (h.perm_declared.map fun entry => entry.2.length).sum_nat
  rw [List.map_map, List.map_map] at hsum
  rw [commandCount, List.length_flatMap, List.length_flatMap]
  refine Eq.trans ?_ hsum
  have hnone : ∀ node ∈ g.nodes.toList, node.declared = false → node.commands = #[] := by
    intro node hmem hdeclared
    obtain ⟨id, hnode⟩ := mem_nodes_iff.1 hmem
    obtain ⟨hlt, rfl⟩ := Array.getElem?_eq_some_iff.1 hnode
    have hmentioned : g.nodes[id] = .mentioned _ := h.node_eq_mentioned ⟨id, hlt⟩ hdeclared
    rw [hmentioned]
    rfl
  generalize g.nodes.toList = nodes at hnone
  induction nodes with
  | nil => rfl
  | cons node nodes ih =>
    obtain ⟨hnode, hnodes⟩ := List.forall_mem_cons.1 hnone
    rw [List.map_cons, List.sum_cons, ih hnodes]
    cases hdeclared : node.declared <;> simp [hdeclared, hnode]

/-! ### The first node, and nodes that are not declared -/

/-- The node of the first block is the first node. -/
theorem Records.first_eq (h : g.Records blocks) (hne : blocks ≠ []) :
  ∃ id : g.Id, g.first? = some id ∧ id.val = 0 ∧ (g.node id).declared = true
  := by
  obtain ⟨block, rest, rfl⟩ := List.exists_cons_of_ne_nil hne
  obtain ⟨id, hid, hname⟩ := h.exists_first? rfl
  refine ⟨id, hid, ?_, ?_⟩
  · apply (hasName_name id).id_eq
    rw [hname, hasName_iff_getElem?_names, h.names]
    simp [Block.mentions, List.eraseDups_cons]
  · rw [← isDeclared_name, h.isDeclared_iff, hname]
    exact List.mem_cons_self

/-- A node that is not declared is a dependency of one that is. -/
theorem Records.exists_needs (h : g.Records blocks) {id : g.Id}
    (hdeclared : (g.node id).declared = false) :
  ∃ target, (g.node target).declared = true ∧ g.Needs target id
  := by
  have hnot : ¬ g.IsDeclared (g.name id) := by simp [isDeclared_name, hdeclared]
  obtain ⟨⟨block, hblock, hmem⟩, -⟩ :=
    h.mem_names_and_not_isDeclared_iff.1 ⟨g.name_mem_names id, hnot⟩
  obtain ⟨target, node, hnode, hrealizes⟩ := h.realized block hblock
  obtain ⟨hlt, rfl⟩ := Array.getElem?_eq_some_iff.1 hnode
  have hdependency := (mem_iff_of_hasName (hasName_name id) hrealizes.dependencies).2 hmem
  exact ⟨⟨target, hlt⟩, hrealizes.declared, needs_iff.2 hdependency⟩

theorem Carries.nodup_dependencies (h : g.Carries blocks)
    (hblocks : ∀ block ∈ blocks, block.dependencies.Nodup) (id : g.Id) :
  (g.node id).dependencies.toList.Nodup
  := by
  rcases h.node_cases id with ⟨block, hblock, hrealizes⟩ | hmentioned
  · exact (List.rel_nodup g.biUnique_hasName hrealizes.dependencies).2 (hblocks block hblock)
  · rw [hmentioned]
    exact List.nodup_nil

theorem Carries.isCommand_of_mem (h : g.Carries blocks)
    (hblocks : ∀ block ∈ blocks, ∀ command ∈ block.commands, IsCommand command) (id : g.Id) :
  ∀ command ∈ (g.node id).commands, IsCommand command
  := by
  intro command hcommand
  rw [← Array.mem_toList_iff] at hcommand
  rcases h.node_cases id with ⟨block, hblock, hrealizes⟩ | hmentioned
  · rw [hrealizes.commands] at hcommand
    exact hblocks block hblock command hcommand
  · rw [hmentioned] at hcommand
    cases hcommand

theorem Records.isName_name (h : g.Records blocks)
    (hblocks : ∀ block ∈ blocks, ∀ name ∈ block.mentions, IsName name) (id : g.Id) :
  IsName (g.name id)
  := by
  have hmem := g.name_mem_names id
  rw [h.names, List.mem_eraseDups, List.mem_flatMap] at hmem
  obtain ⟨block, hblock, hname⟩ := hmem
  exact hblocks block hblock _ hname

/-! ### Well-formed graphs -/

/-- A graph is as it should be when it has been read from lines. -/
structure WellFormed (lines : List (List Char)) (g : Graph) : Prop where
  first : ∃ id : g.Id, g.first? = some id ∧ id.val = 0 ∧ (g.node id).declared = true
  name : ∀ id, IsName (g.name id)
  plain : ∀ id, (g.node id).declared = false →
    (g.node id).dependencies = #[] ∧ (g.node id).commands = #[]
  needed : ∀ id, (g.node id).declared = false →
    ∃ target, (g.node target).declared = true ∧ g.Needs target id
  dependency_lt : ∀ id, ∀ dependency ∈ (g.node id).dependencies, dependency < g.size
  nodup : ∀ id, (g.node id).dependencies.toList.Nodup
  command : ∀ id, ∀ command ∈ (g.node id).commands, IsCommand command
  declaredCount : g.declaredCount = lines.countP BuildFile.isRuleLine
  commandCount : g.commandCount = lines.countP BuildFile.isCommandLine
  unmarked : ∃ marks,
    Evolves ∅ (.clear ∅) ((BuildFile.blocksOf lines).flatMap (Block.deeds g.names.idxOf)) g marks
      ∧ ∀ id, marks.mark id = ⟨.unvisited, false, none⟩

end Graph

namespace BuildFile

open Text

variable {g graph : Graph} {blocks : List Block} {reading after : Reading} {line : Line}
  {words : List Word} {target : Nat} {name text : String} {dependencies : List String}

/-! ### Reading is operating on a graph -/

theorem made_of_addDependencies (h : g.Made (blocks ++ [⟨name, dependencies, []⟩]))
    (hname : g.HasName target name)
    (hadd : Reading.addDependencies line target g words = .ok graph) :
  graph.Made (blocks ++ [⟨name, dependencies ++ words.map Word.text, []⟩])
  := by
  induction words generalizing g dependencies with
  | nil =>
    cases hadd
    rwa [List.map_nil, List.append_nil]
  | cons word words ih =>
    rw [Reading.addDependencies] at hadd
    split at hadd
    · next hdepend =>
      obtain ⟨node, hnode, -⟩ := id hname
      have hdepending := Graph.depending_depend word.text hnode
      rw [hdepend] at hdepending
      rw [List.map_cons, List.append_cons dependencies]
      exact ih (h.depend hname hdepend) (hdepending.hasName_mono hname) hadd
    · cases hadd

theorem made_of_addRule {rule : Rule} (h : reading.graph.Made blocks)
    (hdeclares : Declares line.content rule.name.text)
    (hdependencies : rule.dependencies.map Word.text = dependenciesOf line.content)
    (hadd : reading.addRule line rule = .ok after) :
  after.graph.Made (extend blocks line.content)
  := by
  have hdeclaring := Graph.declaring_declare reading.graph rule.name.text
  unfold Reading.addRule at hadd
  dsimp only at hadd
  split at hadd
  · cases hadd
  · next hdeclare =>
    rw [hdeclare] at hdeclaring
    split at hadd
    · next hgraph =>
      cases hadd
      rw [extend_of_declares hdeclares, ← hdependencies]
      exact made_of_addDependencies (h.declare hdeclare) hdeclaring.hasName hgraph
    · cases hadd

theorem made_of_addCommand (h : reading.graph.Made blocks) (hmeans : Means blocks reading)
    (hcommand : isCommandLine line.content = true)
    (hadd : reading.addCommand line (trim line.content.tail) = .ok after) :
  after.graph.Made (extend blocks line.content)
  := by
  unfold Reading.addCommand at hadd
  split at hadd
  · cases hadd
  · next target hcurrent =>
    cases hadd
    obtain ⟨before, last, rfl, hname⟩ := hmeans.exists_last hcurrent
    rw [extend_of_isCommandLine hcommand]
    exact h.addCommand hname _

/-- A line that is read is operations on the graph, those that it adds to the blocks. -/
theorem made_of_addLine (h : reading.graph.Made blocks) (hmeans : Means blocks reading)
    (hadd : reading.addLine line = .ok after) :
  after.graph.Made (extend blocks line.content)
  := by
  rcases reading.addLine_cases line with ⟨hblank, heq⟩ | ⟨hcommand, heq⟩
    | ⟨hrule, rule, hparse, heq⟩ | ⟨-, flaw, -, heq⟩ <;> rw [heq] at hadd
  · cases hadd
    rwa [extend_of_isBlankLine hblank]
  · exact made_of_addCommand h hmeans hcommand hadd
  · obtain ⟨hdeclares, hdependencies⟩ := declares_of_parse hrule hparse
    exact made_of_addRule h hdeclares hdependencies hadd
  · cases hadd

/-- A graph that is read comes from nothing by the operations of its blocks. -/
theorem made_of_parse (h : parse text = .ok g) :
  g.Made (blocksOf (contents text))
  := by
  obtain ⟨reading, -, hadd, rfl, -⟩ := addLines_of_parse h
  have hstart : Means (blocksOf (([] : List Line).map (·.content))) .start
      ∧ Reading.start.graph.Made (blocksOf (([] : List Line).map (·.content))) :=
    ⟨means_start, .empty⟩
  rw [blocksOf_contents]
  refine (Reading.addLines_kept (fun lines reading =>
    Means (blocksOf (lines.map (·.content))) reading
      ∧ reading.graph.Made (blocksOf (lines.map (·.content)))) ?_ hstart hadd).2
  intro earlier line reading after hinv hline
  rw [List.map_append, List.map_singleton, blocksOf_snoc]
  exact ⟨hinv.1.addLine hline, made_of_addLine hinv.2 hinv.1 hline⟩

/-! ### Well-formedness -/

theorem notMem_contents {content : List Char} (h : content ∈ contents text) :
  '\n' ∉ content
  := by
  obtain ⟨last, hlast, hcontents⟩ := contents_eq_lines text
  rw [hcontents] at h
  rcases List.mem_append.1 h with h | h
  · obtain ⟨line, hline, rfl⟩ := List.mem_map.1 h
    exact notMem_content_of_linesFrom hline
  · rcases hlast with rfl | rfl
    · cases h
    · rw [List.mem_singleton.1 h]
      exact List.not_mem_nil

/-- The names of a graph that is read from a build file are words without a colon. -/
theorem isName_name_of_parse (h : parse text = .ok g) (id : g.Id) :
  IsName (g.name id)
  := by
  have hgrammatical := exists_parse_iff_grammatical.1 ⟨g, h⟩
  have hprintable := printable_blocksOf hgrammatical fun _ => notMem_contents
  apply (records_of_parse h).isName_name hprintable.names

/-- A text is reported if it is a build file, with how many names it mentions and how many rules it
has. -/
theorem parseNamed_snd (file text : String) :
  (parseNamed file text).2
    = if Grammatical (contents text) then
        [.parsed file ((blocksOf (contents text)).flatMap Block.mentions).eraseDups.length
          ((contents text).countP isRuleLine)]
      else []
  := by
  unfold parseNamed
  cases hparse : parse text with
  | error e =>
    have hnot : ¬ Grammatical (contents text) := by simp [← exists_parse_iff_grammatical, hparse]
    rw [if_neg hnot]
  | ok g =>
    have hrecords := records_of_parse hparse
    have hsize : g.names.length = g.size := by simp [Graph.names, Graph.size]
    dsimp only
    rw [if_pos (exists_parse_iff_grammatical.1 ⟨g, hparse⟩), ← hrecords.names, hsize,
      hrecords.declaredCount_eq, length_blocksOf]

/-- The graph that is read from a build file is well formed: its first target is its first node;
its names are words without a colon; a node that is not declared has nothing and is a dependency of
one that is; the dependencies of a node are nodes, no two of them the same; its commands fit on a
line, to the edges of which they reach; there are as many declared nodes as rules, and as many
commands as lines that are commands; and it was made from nothing by declaring each target, and then
giving it its dependencies and its commands, which leaves no mark on any node. -/
theorem wellFormed_of_parse (h : parse text = .ok g) :
  g.WellFormed (contents text)
  := by
  have hrecords := records_of_parse h
  have hgrammatical := exists_parse_iff_grammatical.1 ⟨g, h⟩
  have hprintable := printable_blocksOf hgrammatical fun _ => notMem_contents
  constructor
  case first => exact hrecords.first_eq hprintable.nonempty
  case name => exact isName_name_of_parse h
  case plain =>
    intro id hdeclared
    rw [hrecords.node_eq_mentioned id hdeclared]
    exact ⟨rfl, rfl⟩
  case needed => exact fun _ => hrecords.exists_needs
  case dependency_lt =>
    exact fun id => g.dependency_lt id _ (Array.getElem?_eq_getElem id.isLt)
  case nodup => exact hrecords.nodup_dependencies hprintable.dependencies
  case command => exact hrecords.isCommand_of_mem hprintable.commands
  case declaredCount => rw [hrecords.declaredCount_eq, length_blocksOf]
  case commandCount =>
    rw [hrecords.commandCount_eq, flatMap_commands_blocksOf hgrammatical.clean, List.length_map,
      ← List.countP_eq_length_filter]
  case unmarked => exact ⟨_, made_of_parse h _ g.numbered_idxOf, Marks.mark_clear⟩

/-- A build file with a target that is also a dependency, a line that is blank but for a tab, and
blank characters around a command. -/
def untidy : String :=
  "all: main.o all\r\n\t  cc -o all \n \t\n\t\nmain.o:main.c\n"

theorem grammatical_untidy :
  Grammatical (contents untidy)
  := by decide

theorem wellFormed_of_parse_untidy :
  ∃ g, parse untidy = .ok g ∧ g.WellFormed (contents untidy)
    ∧ g.declaredCount = 2 ∧ g.commandCount = 1
  := by
  obtain ⟨g, hg⟩ := exists_parse_iff_grammatical.2 grammatical_untidy
  have hwell := wellFormed_of_parse hg
  exact ⟨g, hg, hwell, hwell.declaredCount.trans (by decide), hwell.commandCount.trans (by decide)⟩

end BuildFile

end IncrementalBuild
