import IncrementalBuild.Proofs.BuildFile.Order
import IncrementalBuild.Proofs.BuildFile.Placement

/-!
# The blocks of a build file

Every block that lines describe comes from a rule, which has its target and its dependencies, and
from commands; and the commands of all blocks are those of the lines, in their order, if a rule
comes before the first of them.

Words have neither blank characters nor, in a rule with one colon, colons in them, and a command
that is trimmed reaches to the edges of its line.  So the blocks of a build file are `Printable`.
-/

namespace IncrementalBuild.BuildFile

open Text

variable {cs line : List Char} {lines : List (List Char)} {name : String} {block : Block}

/-! ### Words -/

theorem of_mem_wordsFrom {offset : Nat} {word : Word} (h : word ∈ wordsFrom offset cs) :
  word.chars ≠ [] ∧ ∀ c ∈ word.chars, isBlank c = false ∧ c ∈ cs
  := by
  fun_induction wordsFrom offset cs with
  | case1 => cases h
  | case2 offset c cs hblank ih =>
    obtain ⟨hne, hchars⟩ := ih h
    exact ⟨hne, fun d hd => (hchars d hd).imp_right (List.mem_cons_of_mem c)⟩
  | case3 offset c cs hblank run ih =>
    rcases List.mem_cons.1 h with rfl | h
    · refine ⟨List.cons_ne_nil _ _, fun d hd => ⟨isBlank_of_mem_run hblank hd, ?_⟩⟩
      exact List.cons_subset_cons c (List.takeWhile_subset _) hd
    · obtain ⟨hne, hchars⟩ := ih h
      refine ⟨hne, fun d hd => (hchars d hd).imp_right fun hmem => ?_⟩
      exact List.mem_cons_of_mem c (List.dropWhile_subset _ hmem)

/-- A word of a text without colons is a name. -/
theorem isName_of_mem_wordsOf (hcolon : ':' ∉ cs) (h : name ∈ wordsOf cs) :
  IsName name
  := by
  rw [← map_text_wordsFrom 0] at h
  obtain ⟨word, hword, rfl⟩ := List.mem_map.1 h
  obtain ⟨hne, hchars⟩ := of_mem_wordsFrom hword
  constructor
  · rwa [Word.text, ne_eq, String.ofList_eq_empty_iff]
  · rw [Word.text, String.toList_ofList]
    intro c hc
    obtain ⟨hblank, hmem⟩ := hchars c hc
    refine ⟨hblank, ?_⟩
    rintro rfl
    exact hcolon hmem

theorem isName_of_mem_namesOf (h : name ∈ namesOf line) :
  IsName name
  := isName_of_mem_wordsOf notMem_takeWhile h

theorem isName_of_mem_dependenciesOf (hcolon : line.count ':' = 1)
    (h : name ∈ dependenciesOf line) :
  IsName name
  := by
  refine isName_of_mem_wordsOf (fun hmem => ?_) h
  cases hdrop : line.dropWhile (· ≠ ':') with
  | nil =>
    rw [hdrop] at hmem
    cases hmem
  | cons d tail =>
    rw [hdrop, List.tail_cons] at hmem
    have hcount := count_of_dropWhile_eq_cons hdrop
    have hpos := List.count_pos_iff.2 hmem
    omega

/-! ### Commands -/

/-- A text that is trimmed begins where the text without the blanks before it begins. -/
theorem trim_prefix_trimStart (cs : List Char) :
  trim cs <+: trimStart cs
  := by
  rw [trim, trimEnd, ← List.reverse_suffix, List.reverse_reverse]
  exact List.dropWhile_suffix _

theorem trim_subset (cs : List Char) :
  trim cs ⊆ cs
  := fun _ hc => List.dropWhile_subset _ ((trim_prefix_trimStart cs).subset hc)

theorem isBlank_head?_trim :
  ∀ c ∈ (trim cs).head?, isBlank c = false
  := by
  intro c hc
  obtain ⟨rest, hrest⟩ := List.head?_eq_some_iff.1 hc
  obtain ⟨after, hafter⟩ := trim_prefix_trimStart cs
  have hhead := List.head?_dropWhile_not isBlank cs
  rw [← trimStart, ← hafter, hrest] at hhead
  simpa using hhead

theorem isBlank_getLast?_trim :
  ∀ c ∈ (trim cs).getLast?, isBlank c = false
  := by
  intro c hc
  have hhead := List.head?_dropWhile_not isBlank (trimStart cs).reverse
  rw [trim, trimEnd, List.getLast?_reverse] at hc
  rw [Option.mem_def.1 hc] at hhead
  simpa using hhead

theorem trim_tail_ne_nil (h : isCommandLine line = true) :
  trim line.tail ≠ []
  := by
  obtain ⟨hblank, htab⟩ := isCommandLine_iff.1 h
  obtain ⟨rest, rfl⟩ := List.head?_eq_some_iff.1 htab
  intro htrim
  rw [List.tail_cons] at htrim
  obtain ⟨right, hsplit, hright⟩ := exists_eq_append_trim rest
  rw [htrim, List.append_nil] at hsplit
  have hall : ∀ c ∈ rest, isBlank c = true := by
    rw [hsplit]
    intro c hc
    rcases List.mem_append.1 hc with hc | hc
    · exact List.mem_takeWhile_imp hc
    · exact hright c hc
  have hline : isBlankLine ('\t' :: rest) = true := by
    rw [isBlankLine, List.all_cons, isBlank_tab, Bool.true_and, List.all_eq_true]
    exact hall
  cases hblank.symm.trans hline

theorem isCommand_trim_tail (h : isCommandLine line = true) (hfeed : '\n' ∉ line) :
  IsCommand (String.ofList (trim line.tail))
  := by
  constructor
  case nonempty =>
    rw [ne_eq, String.ofList_eq_empty_iff]
    exact trim_tail_ne_nil h
  case line =>
    rw [String.toList_ofList]
    exact fun hmem => hfeed (List.mem_of_mem_tail (trim_subset _ hmem))
  case left =>
    rw [String.toList_ofList]
    exact isBlank_head?_trim
  case right =>
    rw [String.toList_ofList]
    exact isBlank_getLast?_trim

/-! ### Where blocks come from -/

/-- A block has the target and the dependencies of a rule, and commands from commands. -/
structure ComesFrom (lines : List (List Char)) (block : Block) : Prop where
  rule : ∃ line ∈ lines, isRuleLine line = true ∧ block.target = (namesOf line).headD ""
    ∧ block.dependencies = dependenciesOf line
  commands : ∀ command ∈ block.commands, ∃ line ∈ lines, isCommandLine line = true
    ∧ command = String.ofList (trim line.tail)

theorem ComesFrom.snoc (h : ComesFrom lines block) (line : List Char) :
  ComesFrom (lines ++ [line]) block
  := by
  have hmono : ∀ other ∈ lines, other ∈ lines ++ [line] := fun _ => List.mem_append_left _
  obtain ⟨⟨rule, hrule, hblock⟩, hcommands⟩ := h
  refine ⟨⟨rule, hmono rule hrule, hblock⟩, fun command hcommand => ?_⟩
  obtain ⟨other, hother, hcommand⟩ := hcommands command hcommand
  exact ⟨other, hmono other hother, hcommand⟩

theorem comesFrom_of_mem_blocksOf (h : block ∈ blocksOf lines) :
  ComesFrom lines block
  := by
  induction lines using List.reverseRecOn generalizing block with
  | nil => cases h
  | append_singleton lines line ih =>
    have hline : line ∈ lines ++ [line] := List.mem_append_right _ List.mem_cons_self
    rw [blocksOf_snoc, extend] at h
    split at h
    · next hrule =>
      rcases List.mem_append.1 h with h | h
      · exact (ih h).snoc line
      · rw [List.mem_singleton.1 h]
        exact ⟨⟨line, hline, hrule, rfl, rfl⟩, by simp⟩
    · split at h
      · next hcommand =>
        cases hblocks : blocksOf lines using List.reverseRecOn with
        | nil =>
          rw [hblocks] at h
          cases h
        | append_singleton before last =>
          rw [hblocks, List.modifyLast_concat] at h
          rw [hblocks] at ih
          rcases List.mem_append.1 h with h | h
          · exact (ih (List.mem_append_left _ h)).snoc line
          · obtain ⟨hrule, hcommands⟩ := (ih (List.mem_append_right _ List.mem_cons_self)).snoc line
            rw [List.mem_singleton.1 h]
            refine ⟨hrule, fun command hmem => ?_⟩
            rcases List.mem_append.1 hmem with hmem | hmem
            · exact hcommands command hmem
            · exact ⟨line, hline, hcommand, List.mem_singleton.1 hmem⟩
      · exact (ih h).snoc line

/-- The blocks of a build file can be printed. -/
theorem printable_blocksOf (h : Grammatical lines) (hfeed : ∀ line ∈ lines, '\n' ∉ line) :
  Printable (blocksOf lines)
  := by
  have htargets := targets_blocksOf lines
  have hsingle : ∀ line ∈ lines.filter isRuleLine, namesOf line = [(namesOf line).headD ""] := by
    intro line hline
    obtain ⟨hmem, hrule⟩ := List.mem_filter.1 hline
    obtain ⟨name, hname⟩ := List.length_eq_one_iff.1 (h.name line hmem hrule)
    rw [hname, List.headD_cons]
  constructor
  case nonempty =>
    intro hnil
    obtain ⟨line, hline, hrule⟩ := h.clean.exists_isRuleLine h.notBlank
    rw [hnil, eq_comm, Block.targets, List.map_nil, List.map_eq_nil_iff] at htargets
    exact List.filter_eq_nil_iff.1 htargets line hline hrule
  case targets =>
    have hnames := h.names
    rwa [List.flatMap_congr hsingle, ← List.map_eq_flatMap, ← htargets] at hnames
  case dependencies =>
    intro block hblock
    obtain ⟨line, hline, hrule, -, hdependencies⟩ := (comesFrom_of_mem_blocksOf hblock).rule
    rw [hdependencies]
    exact h.dependencies line hline hrule
  case names =>
    intro block hblock
    obtain ⟨line, hline, hrule, htarget, hdependencies⟩ := (comesFrom_of_mem_blocksOf hblock).rule
    have hmem : (namesOf line).headD "" ∈ namesOf line := by
      rw [hsingle line (List.mem_filter.2 ⟨hline, hrule⟩), List.headD_cons]
      exact List.mem_cons_self
    rw [Block.mentions, List.forall_mem_cons, htarget, hdependencies]
    exact ⟨isName_of_mem_namesOf hmem, fun name =>
      isName_of_mem_dependenciesOf (h.colon line hline hrule)⟩
  case commands =>
    intro block hblock command hmem
    obtain ⟨line, hline, hcommand, rfl⟩ := (comesFrom_of_mem_blocksOf hblock).commands command hmem
    exact isCommand_trim_tail hcommand (hfeed line hline)

/-! ### How many there are -/

theorem length_blocksOf (lines : List (List Char)) :
  (blocksOf lines).length = lines.countP isRuleLine
  := by
  have hlength := congrArg List.length (targets_blocksOf lines)
  rwa [List.length_map, List.length_map, ← List.countP_eq_length_filter] at hlength

/-- The commands of the blocks are those of the lines, in their order. -/
theorem flatMap_commands_blocksOf (h : Clean lines) :
  (blocksOf lines).flatMap Block.commands
    = (lines.filter isCommandLine).map fun line => String.ofList (trim line.tail)
  := by
  induction lines using List.reverseRecOn with
  | nil => rfl
  | append_singleton lines line ih =>
    obtain ⟨hlines, hline⟩ := clean_snoc.1 h
    rw [blocksOf_snoc, List.filter_append, List.map_append, ← ih hlines, extend]
    split
    · next hrule =>
      have hcommand : isCommandLine line = false := by
        rw [← Bool.not_eq_true]
        exact fun hcommand => absurd hrule (by simp [isRuleLine_of_isCommandLine hcommand])
      simp [hcommand]
    · split
      · next hcommand =>
        cases hblocks : blocksOf lines using List.reverseRecOn with
        | nil =>
          -- there is a rule before the line, and so there is a block
          have hlength := length_blocksOf lines
          rw [hblocks, List.length_nil, eq_comm, List.countP_eq_zero] at hlength
          exact absurd (.commandBeforeTarget hcommand (by simpa using hlength)) (hline _)
        | append_singleton before last => simp [List.modifyLast_concat, hcommand]
      · next hcommand => simp [hcommand]

end IncrementalBuild.BuildFile
