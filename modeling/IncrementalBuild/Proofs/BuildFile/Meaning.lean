import IncrementalBuild.Proofs.BuildFile.Acceptance
import IncrementalBuild.Proofs.Graph.Record
import Mathlib.Data.List.ModifyLast

/-!
# What a build file means

The lines of a build file have a meaning that says nothing about graphs: `blocksOf` are the
blocks they describe.  A rule begins a block, and a command belongs to the block begun last.

The graph that is read from a text records the blocks that its lines describe.  While the
lines are read, the target that commands are added to is that of the last block.
-/

namespace IncrementalBuild.BuildFile

open Text

/-- The blocks described by lines and one more line. -/
def extend (blocks : List Block) (line : List Char) : List Block :=
  if isRuleLine line then
    blocks ++ [⟨(namesOf line).headD "", dependenciesOf line, []⟩]
  else if isCommandLine line then
    blocks.modifyLast fun block =>
      { block with commands := block.commands ++ [String.ofList (trim line.tail)] }
  else
    blocks

/-- The blocks that lines describe. -/
def blocksOf (lines : List (List Char)) : List Block :=
  lines.foldl extend []

section

variable {blocks : List Block} {block : Block} {line : List Char}

theorem extend_of_isBlankLine (h : isBlankLine line = true) :
  extend blocks line = blocks
  := by simp [extend, isRuleLine, isCommandLine, h]

theorem extend_of_declares {name : String} (h : Declares line name) :
  extend blocks line = blocks ++ [⟨name, dependenciesOf line, []⟩]
  := by rw [extend, if_pos h.rule, h.names, List.headD_cons]

theorem extend_of_isCommandLine (h : isCommandLine line = true) :
  extend (blocks ++ [block]) line
    = blocks ++ [{ block with commands := block.commands ++ [String.ofList (trim line.tail)] }]
  := by
  rw [extend, if_neg (by simp [isRuleLine_of_isCommandLine h]), if_pos h, List.modifyLast_concat]

theorem blocksOf_snoc (lines : List (List Char)) (line : List Char) :
  blocksOf (lines ++ [line]) = extend (blocksOf lines) line
  := by rw [blocksOf, List.foldl_append, List.foldl_cons, List.foldl_nil, ← blocksOf]

end

/-- What has been read records what the lines describe, and the target declared last is that
of the last block. -/
structure Means (blocks : List Block) (reading : Reading) : Prop where
  records : reading.graph.Records blocks
  current : Option.Rel reading.graph.HasName reading.current (Block.targets blocks).getLast?

theorem means_start :
  Means [] .start
  := ⟨Graph.records_empty, .none⟩

namespace Means

variable {blocks : List Block} {block : Block} {reading after : Reading} {line : Line}
  {g : Graph} {target : Nat}

theorem of_snoc (hrecords : g.Records (blocks ++ [block])) (hname : g.HasName target block.target)
    (declaredAt : List (Nat × Span)) :
  Means (blocks ++ [block]) ⟨g, some target, declaredAt⟩
  := by
  refine ⟨hrecords, ?_⟩
  rw [Block.targets, List.map_append, List.map_singleton, List.getLast?_concat]
  exact .some hname

/-- The target to add commands to is that of the last block. -/
theorem exists_last (h : Means blocks reading) (hcurrent : reading.current = some target) :
  ∃ before last, blocks = before ++ [last] ∧ reading.graph.HasName target last.target
  := by
  have hlast := h.current
  rw [hcurrent] at hlast
  cases hblocks : blocks using List.reverseRecOn with
  | nil =>
    rw [hblocks] at hlast
    cases hlast
  | append_singleton before last =>
    rw [hblocks, Block.targets, List.map_append, List.map_singleton, List.getLast?_concat] at hlast
    cases hlast with
    | some hname => exact ⟨before, last, rfl, hname⟩

theorem addCommand (h : Means blocks reading) (hcommand : isCommandLine line.content = true)
    (hadd : reading.addCommand line (trim line.content.tail) = .ok after) :
  Means (extend blocks line.content) after
  := by
  unfold Reading.addCommand at hadd
  split at hadd
  · cases hadd
  · next target hcurrent =>
    cases hadd
    obtain ⟨before, last, rfl, hname⟩ := h.exists_last hcurrent
    obtain ⟨hrecords, hname⟩ := h.records.addCommand (String.ofList (trim line.content.tail)) hname
    rw [extend_of_isCommandLine hcommand, hcurrent]
    apply of_snoc hrecords hname

theorem addDependencies {name : String} {dependencies : List String} {words : List Word}
    (hrecords : g.Records (blocks ++ [⟨name, dependencies, []⟩])) (hname : g.HasName target name)
    {graph : Graph} (hadd : Reading.addDependencies line target g words = .ok graph) :
  graph.Records (blocks ++ [⟨name, dependencies ++ words.map Word.text, []⟩])
    ∧ graph.HasName target name
  := by
  induction words generalizing g dependencies with
  | nil =>
    cases hadd
    rw [List.map_nil, List.append_nil]
    exact ⟨hrecords, hname⟩
  | cons word words ih =>
    rw [Reading.addDependencies] at hadd
    split at hadd
    · next hdepend =>
      obtain ⟨node, hnode, -⟩ := id hname
      have hdepending := Graph.depending_depend word.text hnode
      rw [hdepend] at hdepending
      obtain ⟨hrecords, hname⟩ := hrecords.depend hname hdepending
      rw [List.map_cons, List.append_cons dependencies]
      apply ih hrecords hname hadd
    · cases hadd

theorem addRule {rule : Rule} (h : Means blocks reading)
    (hdeclares : Declares line.content rule.name.text)
    (hdependencies : rule.dependencies.map Word.text = dependenciesOf line.content)
    (hadd : reading.addRule line rule = .ok after) :
  Means (extend blocks line.content) after
  := by
  have hdeclaring := Graph.declaring_declare reading.graph rule.name.text
  unfold Reading.addRule at hadd
  dsimp only at hadd
  split at hadd
  · cases hadd
  · next g id hdeclare =>
    rw [hdeclare] at hdeclaring
    obtain ⟨hrecords, hname⟩ := h.records.declare hdeclaring
    split at hadd
    · next graph hgraph =>
      cases hadd
      obtain ⟨hrecords, hname⟩ := addDependencies hrecords hname hgraph
      rw [List.nil_append, hdependencies] at hrecords
      rw [extend_of_declares hdeclares]
      apply of_snoc hrecords hname
    · cases hadd

/-- Reading a line. -/
theorem addLine (h : Means blocks reading) (hadd : reading.addLine line = .ok after) :
  Means (extend blocks line.content) after
  := by
  rcases reading.addLine_cases line with ⟨hblank, heq⟩ | ⟨hcommand, heq⟩
    | ⟨hrule, rule, hparse, heq⟩ | ⟨-, flaw, -, heq⟩ <;> rw [heq] at hadd
  · cases hadd
    rwa [extend_of_isBlankLine hblank]
  · apply h.addCommand hcommand hadd
  · obtain ⟨hdeclares, hdependencies⟩ := declares_of_parse hrule hparse
    apply h.addRule hdeclares hdependencies hadd
  · cases hadd

/-- Reading all lines. -/
theorem addLines {lines : List Line} (hadd : Reading.start.addLines lines = .ok after) :
  Means (blocksOf (lines.map (·.content))) after
  := by
  have hstart : Means (blocksOf (([] : List Line).map (·.content))) .start := means_start
  refine Reading.addLines_kept
    (fun lines => Means (blocksOf (lines.map (·.content)))) ?_ hstart hadd
  intro earlier line reading after h hadd
  rw [List.map_append, List.map_singleton, blocksOf_snoc]
  apply h.addLine hadd

end Means

/-- What is left of a text after its last line is blank, so it adds nothing to the blocks. -/
theorem blocksOf_contents (text : String) :
  blocksOf (contents text) = blocksOf ((lines text.toList).map (·.content))
  := by
  obtain ⟨last, hlast, hcontents⟩ := contents_eq_lines text
  rw [hcontents]
  rcases hlast with rfl | rfl
  · rw [List.append_nil]
  · rw [blocksOf_snoc, extend_of_isBlankLine rfl]

/-- The graph read from a text records the blocks that the lines of the text describe. -/
theorem records_of_parse {text : String} {g : Graph} (h : parse text = .ok g) :
  g.Records (blocksOf (contents text))
  := by
  obtain ⟨reading, -, hadd, rfl, -⟩ := addLines_of_parse h
  rw [blocksOf_contents]
  apply (Means.addLines hadd).records

end IncrementalBuild.BuildFile
