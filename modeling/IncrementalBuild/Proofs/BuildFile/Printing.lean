import IncrementalBuild.Proofs.BuildFile.Meaning
import Mathlib.Tactic.MkIffOfInductiveProp

/-!
# Printing a build file, and reading it again

`print` writes blocks as a build file: for each block a line with its target, a colon and its
dependencies, each after a space, and then a line for each command, after a tab.  Blocks are
`Printable` if their names are words without a colon, no target and no dependency of a target
is repeated, and their commands fit on a line, to the edges of which they reach.

Between a printed text and the graph that is read from it stand the lines of the text: these
are the lines that were printed and an empty one, they are grammatical, and the blocks that
they describe are those that were printed.
-/

namespace IncrementalBuild

open Text

/-- A name that is read back as it is written. -/
def IsName (name : String) : Prop :=
  name ≠ "" ∧ ∀ c ∈ name.toList, isBlank c = false ∧ c ≠ ':'

instance (name : String) : Decidable (IsName name) :=
  decidable_of_iff (name ≠ "" ∧ name.toList.all fun c => !isBlank c && c ≠ ':') (by simp [IsName])

/-- A command that is read back as it is written. -/
@[mk_iff]
structure IsCommand (command : String) : Prop where
  nonempty : command ≠ ""
  line : '\n' ∉ command.toList
  left : ∀ c ∈ command.toList.head?, isBlank c = false
  right : ∀ c ∈ command.toList.getLast?, isBlank c = false

instance (command : String) : Decidable (IsCommand command) :=
  decidable_of_iff
    (command ≠ "" ∧ '\n' ∉ command.toList ∧ command.toList.head?.all (!isBlank ·)
      ∧ command.toList.getLast?.all (!isBlank ·))
    (by simp [isCommand_iff, Option.all_eq_true])

/-- Blocks that are read back as they are written. -/
@[mk_iff]
structure Printable (blocks : List Block) : Prop where
  nonempty : blocks ≠ []
  targets : (Block.targets blocks).Nodup
  dependencies : ∀ block ∈ blocks, block.dependencies.Nodup
  names : ∀ block ∈ blocks, ∀ name ∈ block.mentions, IsName name
  commands : ∀ block ∈ blocks, ∀ command ∈ block.commands, IsCommand command

instance (blocks : List Block) : Decidable (Printable blocks) :=
  decidable_of_iff _ (printable_iff blocks).symm

/-- A block as text. -/
def Block.print (block : Block) : String :=
  block.target ++ ":" ++ String.join (block.dependencies.map (" " ++ ·)) ++ "\n"
    ++ String.join (block.commands.map fun command => "\t" ++ command ++ "\n")

/-- Blocks as a build file. -/
def print (blocks : List Block) : String :=
  String.join (blocks.map Block.print)

example :
  print [⟨"all", ["a", "b"], ["cc a b"]⟩, ⟨"b", [], []⟩] = "all: a b\n\tcc a b\nb:\n"
  := by decide

/-- The line that names the target of a block and its dependencies. -/
def Block.ruleLine (block : Block) : List Char :=
  block.target.toList ++ ':' :: block.dependencies.flatMap fun name => ' ' :: name.toList

/-- The line of a command. -/
def commandLine (command : String) : List Char :=
  '\t' :: command.toList

/-- The lines of a block. -/
def Block.lines (block : Block) : List (List Char) :=
  block.ruleLine :: block.commands.map commandLine

theorem Block.toList_print (block : Block) :
  block.print.toList = block.lines.flatMap (· ++ ['\n'])
  := by
  simp [print, lines, ruleLine, commandLine, String.toList_join, List.flatMap_map]

theorem toList_print (blocks : List Block) :
  (print blocks).toList = (blocks.flatMap Block.lines).flatMap (· ++ ['\n'])
  := by
  rw [print, String.toList_join, List.flatMap_map, List.flatMap_assoc]
  simp only [Block.toList_print]

namespace BuildFile

variable {blocks : List Block} {block : Block} {name command : String} {names : List String}

/-! ### A printed rule -/

theorem wordsOf_toList (h : IsName name) {rest : List Char}
    (hrest : ∀ c ∈ rest.head?, isBlank c = true) :
  wordsOf (name.toList ++ rest) = name :: wordsOf rest
  := by
  rw [wordsOf_append _ (fun c hc => (h.2 c hc).1) hrest, String.ofList_toList]
  simpa using h.1

theorem wordsOf_flatMap (h : ∀ name ∈ names, IsName name) :
  wordsOf (names.flatMap fun name => ' ' :: name.toList) = names
  := by
  induction names with
  | nil => rw [List.flatMap_nil, wordsOf_nil]
  | cons name names ih =>
    obtain ⟨hname, hnames⟩ := List.forall_mem_cons.1 h
    rw [List.flatMap_cons, List.cons_append, wordsOf_blank isBlank_space, wordsOf_toList hname,
      ih hnames]
    cases names <;> simp [isBlank_space]

theorem eq_space_or_of_mem_flatMap (h : ∀ name ∈ names, IsName name) {c : Char}
    (hc : c ∈ names.flatMap fun name => ' ' :: name.toList) :
  c = ' ' ∨ isBlank c = false ∧ c ≠ ':'
  := by
  obtain ⟨name, hname, hc⟩ := List.mem_flatMap.1 hc
  rcases List.mem_cons.1 hc with hc | hc
  · exact .inl hc
  · exact .inr ((h name hname).2 c hc)

section

variable (hnames : ∀ name ∈ block.mentions, IsName name)

include hnames

theorem notMem_target :
  ':' ∉ block.target.toList
  := fun hmem => ((hnames block.target List.mem_cons_self).2 _ hmem).2 rfl

theorem dependenciesOf_ruleLine :
  dependenciesOf block.ruleLine = block.dependencies
  := by
  rw [Block.ruleLine, dependenciesOf_append (notMem_target hnames),
    wordsOf_flatMap (List.forall_mem_cons.1 hnames).2]

/-- No character of a printed rule is blank but the spaces. -/
theorem eq_space_or_of_mem_ruleLine {c : Char} (hc : c ∈ block.ruleLine) :
  c = ' ' ∨ isBlank c = false
  := by
  obtain ⟨htarget, hdependencies⟩ := List.forall_mem_cons.1 hnames
  rcases List.mem_append.1 hc with hc | hc
  · exact .inr (htarget.2 c hc).1
  · rcases List.mem_cons.1 hc with rfl | hc
    · exact .inr (by decide)
    · exact (eq_space_or_of_mem_flatMap hdependencies hc).imp_right And.left

theorem declares_ruleLine :
  Declares block.ruleLine block.target
  := by
  obtain ⟨htarget, hdependencies⟩ := List.forall_mem_cons.1 hnames
  constructor
  case rule =>
    obtain ⟨c, cs, hcs⟩ := List.exists_cons_of_ne_nil (mt String.toList_eq_nil_iff.1 htarget.1)
    have hc : isBlank c = false := (htarget.2 c (by simp [hcs])).1
    rw [isRuleLine_iff, Block.ruleLine, hcs]
    constructor
    · simp [isBlankLine, hc]
    · rintro htab
      cases htab
      cases hc
  case colon =>
    rw [Block.ruleLine, List.count_append, List.count_eq_zero.2, List.count_cons_self,
      List.count_eq_zero.2]
    · intro hmem
      rcases eq_space_or_of_mem_flatMap hdependencies hmem with hspace | ⟨-, hcolon⟩
      · cases hspace
      · exact hcolon rfl
    · apply notMem_target hnames
  case names =>
    rw [Block.ruleLine, namesOf_append (notMem_target hnames),
      ← List.append_nil block.target.toList,
      wordsOf_toList htarget (by simp), wordsOf_nil]

end

/-! ### A printed command -/

theorem dropWhile_isBlank {cs : List Char} (h : ∀ c ∈ cs.head?, isBlank c = false) :
  cs.dropWhile isBlank = cs
  := by
  cases cs with
  | nil => rfl
  | cons c cs => rw [List.dropWhile_cons_of_neg (by simp [h c rfl])]

theorem trimEnd_eq_self {cs : List Char} (h : ∀ c ∈ cs.getLast?, isBlank c = false) :
  trimEnd cs = cs
  := by
  rw [← List.head?_reverse] at h
  rw [trimEnd, dropWhile_isBlank h, List.reverse_reverse]

/-- A text that reaches to its edges has nothing to be trimmed. -/
theorem trim_eq_self {cs : List Char} (hleft : ∀ c ∈ cs.head?, isBlank c = false)
    (hright : ∀ c ∈ cs.getLast?, isBlank c = false) :
  trim cs = cs
  := by rw [trim, trimStart, dropWhile_isBlank hleft, trimEnd_eq_self hright]

theorem isCommandLine_commandLine (h : IsCommand command) :
  isCommandLine (commandLine command) = true
  := by
  obtain ⟨c, cs, hcs⟩ := List.exists_cons_of_ne_nil (mt String.toList_eq_nil_iff.1 h.nonempty)
  have hc : isBlank c = false := h.left c (by simp [hcs])
  simp [isCommandLine, isBlankLine, commandLine, hcs, hc]

theorem extend_commandLine (h : IsCommand command) :
  extend (blocks ++ [block]) (commandLine command)
    = blocks ++ [{ block with commands := block.commands ++ [command] }]
  := by
  rw [extend_of_isCommandLine (isCommandLine_commandLine h), commandLine, List.tail_cons,
    trim_eq_self h.left h.right, String.ofList_toList]

/-! ### The lines of a printed text -/

theorem dropReturn_eq_self {line : List Char} (h : line.getLast? ≠ some '\r') :
  dropReturn line = line
  := if_neg h

theorem contents_of_toList_eq {text : String} {lines : List (List Char)}
    (htext : text.toList = lines.flatMap (· ++ ['\n']))
    (hlines : ∀ line ∈ lines, '\n' ∉ line ∧ dropReturn line = line) :
  contents text = lines ++ [[]]
  := by
  rw [contents, htext]
  clear htext
  induction lines with
  | nil => rfl
  | cons line lines ih =>
    obtain ⟨⟨hfeed, hreturn⟩, hlines⟩ := List.forall_mem_cons.1 hlines
    rw [List.flatMap_cons, List.append_assoc, List.singleton_append,
      List.splitOn_append_cons_self_of_not_mem hfeed, List.map_cons, hreturn, ih hlines,
      List.cons_append]

theorem line_ruleLine (hnames : ∀ name ∈ block.mentions, IsName name) :
  '\n' ∉ block.ruleLine ∧ dropReturn block.ruleLine = block.ruleLine
  := by
  constructor
  · intro hmem
    rcases eq_space_or_of_mem_ruleLine hnames hmem with h | h <;> cases h
  · apply dropReturn_eq_self
    intro hlast
    rcases eq_space_or_of_mem_ruleLine hnames (List.mem_of_getLast? hlast) with h | h <;> cases h

theorem line_commandLine (h : IsCommand command) :
  '\n' ∉ commandLine command ∧ dropReturn (commandLine command) = commandLine command
  := by
  constructor
  · simpa [commandLine] using h.line
  · apply dropReturn_eq_self
    intro hlast
    have hne : command.toList ≠ [] := mt String.toList_eq_nil_iff.1 h.nonempty
    rw [commandLine, List.getLast?_cons_of_ne_nil hne] at hlast
    cases h.right _ hlast

theorem foldl_extend_commands {commands : List String}
    (h : ∀ command ∈ commands, IsCommand command) :
  (commands.map commandLine).foldl extend (blocks ++ [block])
    = blocks ++ [{ block with commands := block.commands ++ commands }]
  := by
  induction commands generalizing block with
  | nil => simp
  | cons command commands ih =>
    obtain ⟨hcommand, hcommands⟩ := List.forall_mem_cons.1 h
    rw [List.map_cons, List.foldl_cons, extend_commandLine hcommand, ih hcommands]
    simp

/-- The lines of a block describe the block. -/
theorem foldl_extend_lines (hnames : ∀ name ∈ block.mentions, IsName name)
    (hcommands : ∀ command ∈ block.commands, IsCommand command) :
  block.lines.foldl extend blocks = blocks ++ [block]
  := by
  rw [Block.lines, List.foldl_cons, extend_of_declares (declares_ruleLine hnames),
    dependenciesOf_ruleLine hnames, foldl_extend_commands hcommands]
  rfl

theorem filter_isRuleLine_lines (hnames : ∀ name ∈ block.mentions, IsName name)
    (hcommands : ∀ command ∈ block.commands, IsCommand command) :
  block.lines.filter isRuleLine = [block.ruleLine]
  := by
  rw [Block.lines, List.filter_cons_of_pos (declares_ruleLine hnames).rule,
    List.filter_eq_nil_iff.2]
  intro line hline
  obtain ⟨command, hcommand, rfl⟩ := List.mem_map.1 hline
  have h := isRuleLine_of_isCommandLine (isCommandLine_commandLine (hcommands command hcommand))
  simp [h]

section

variable (h : Printable blocks)

include h

theorem contents_print :
  contents (print blocks) = blocks.flatMap Block.lines ++ [[]]
  := by
  apply contents_of_toList_eq (toList_print blocks)
  intro line hline
  obtain ⟨block, hblock, hline⟩ := List.mem_flatMap.1 hline
  rcases List.mem_cons.1 hline with rfl | hline
  · apply line_ruleLine (h.names block hblock)
  · obtain ⟨command, hcommand, rfl⟩ := List.mem_map.1 hline
    apply line_commandLine (h.commands block hblock command hcommand)

/-- The lines of printed blocks describe these blocks. -/
theorem blocksOf_print :
  blocksOf (contents (print blocks)) = blocks
  := by
  -- by induction on the blocks whose lines are still to be read
  have hfold : ∀ before rest, before ++ rest = blocks →
      (rest.flatMap Block.lines).foldl extend before = before ++ rest := by
    intro before rest hblocks
    induction rest generalizing before with
    | nil => simp
    | cons block rest ih =>
      have hblock : block ∈ blocks := by simp [← hblocks]
      rw [List.flatMap_cons, List.foldl_append,
        foldl_extend_lines (h.names block hblock) (h.commands block hblock), ih, ← List.append_cons]
      rw [← List.append_cons, hblocks]
  rw [contents_print h, blocksOf_snoc, extend_of_isBlankLine rfl, blocksOf, hfold [] blocks rfl,
    List.nil_append]

/-- The rules among the lines of printed blocks. -/
theorem filter_isRuleLine_print :
  (contents (print blocks)).filter isRuleLine = blocks.map Block.ruleLine
  := by
  have hlines : ∀ block ∈ blocks, block.lines.filter isRuleLine = [block.ruleLine] :=
    fun block hblock => filter_isRuleLine_lines (h.names block hblock) (h.commands block hblock)
  rw [contents_print h, List.filter_append, List.filter_flatMap, List.flatMap_congr hlines,
    ← List.map_eq_flatMap]
  exact List.append_nil _

/-- Printed blocks are a build file. -/
theorem grammatical_print :
  Grammatical (contents (print blocks))
  := by
  have hdeclares : ∀ block ∈ blocks, Declares block.ruleLine block.target := fun block hblock =>
    declares_ruleLine (h.names block hblock)
  have hrule : ∀ line ∈ contents (print blocks), isRuleLine line = true →
      ∃ block ∈ blocks, block.ruleLine = line := by
    intro line hline hrule
    have hmem := List.mem_filter.2 ⟨hline, hrule⟩
    rwa [filter_isRuleLine_print h, List.mem_map] at hmem
  obtain ⟨first, rest, hfirst⟩ := List.exists_cons_of_ne_nil h.nonempty
  have hhead : ∃ lines, contents (print blocks) = first.ruleLine :: lines := by
    rw [contents_print h, hfirst]
    exact ⟨_, rfl⟩
  obtain ⟨lines, hlines⟩ := hhead
  obtain ⟨hblank, htab⟩ := isRuleLine_iff.1 (hdeclares first (by simp [hfirst])).rule
  constructor
  case notBlank => exact ⟨first.ruleLine, by simp [hlines], hblank⟩
  case first =>
    intro line hfind
    rw [hlines, List.find?_cons_of_pos (by simp [hblank])] at hfind
    rwa [← Option.some.inj hfind]
  case colon =>
    intro line hline hisRule
    obtain ⟨block, hblock, rfl⟩ := hrule line hline hisRule
    apply (hdeclares block hblock).colon
  case name =>
    intro line hline hisRule
    obtain ⟨block, hblock, rfl⟩ := hrule line hline hisRule
    rw [(hdeclares block hblock).names, List.length_singleton]
  case names =>
    have hnames : ∀ block ∈ blocks, namesOf block.ruleLine = [block.target] := fun block hblock =>
      (hdeclares block hblock).names
    rw [filter_isRuleLine_print h, List.flatMap_map, List.flatMap_congr hnames,
      ← List.map_eq_flatMap]
    apply h.targets
  case dependencies =>
    intro line hline hisRule
    obtain ⟨block, hblock, rfl⟩ := hrule line hline hisRule
    rw [dependenciesOf_ruleLine (h.names block hblock)]
    apply h.dependencies block hblock

end

/-- Parsing undoes printing: blocks that are printed are read back as a graph that records
them.  Its declared names are the targets, and its other names are those of the dependencies
that are no targets. -/
theorem parse_print (h : Printable blocks) :
  ∃ g, parse (print blocks) = .ok g ∧ g.Records blocks
    ∧ (∀ name, g.IsDeclared name ↔ name ∈ Block.targets blocks)
    ∧ ∀ name, name ∈ g.names ∧ ¬ g.IsDeclared name ↔
        (∃ block ∈ blocks, name ∈ block.dependencies) ∧ name ∉ Block.targets blocks
  := by
  obtain ⟨g, hparse⟩ := exists_parse_iff_grammatical.2 (grammatical_print h)
  have hrecords := records_of_parse hparse
  rw [blocksOf_print h] at hrecords
  exact ⟨g, hparse, hrecords, fun _ => hrecords.isDeclared_iff,
    fun _ => hrecords.mem_names_and_not_isDeclared_iff⟩

/-- Two blocks: the first depends on itself, and on the second before this one is declared, and
its commands have colons and tabs in them. -/
def selfish : List Block :=
  [⟨"all", ["main.o", "all"], ["cc -o all: main.o", "say\tdone"]⟩, ⟨"main.o", ["main.c"], []⟩]

theorem printable_selfish :
  Printable selfish
  := by decide

theorem parse_print_selfish :
  Printable selfish ∧ ∃ g, parse (print selfish) = .ok g ∧ g.Records selfish
    ∧ (∀ name, g.IsDeclared name ↔ name ∈ Block.targets selfish)
    ∧ ∀ name, name ∈ g.names ∧ ¬ g.IsDeclared name ↔
        (∃ block ∈ selfish, name ∈ block.dependencies) ∧ name ∉ Block.targets selfish
  := ⟨printable_selfish, parse_print printable_selfish⟩

end BuildFile

end IncrementalBuild
