import IncrementalBuild.Proofs.BuildFile.Label
import IncrementalBuild.Proofs.BuildFile.WellFormed

/-!
# Going on with a build file

A text that is empty or ends with a line feed can be gone on with.  Its lines stay what they are,
with their numbers and their offsets.  So an error about one of them stays the same error, and the
blocks that they describe stay the same, but for further commands of the last of them.

From this follows what becomes of the graph: its nodes keep their numbers and their names, its
targets keep their dependencies and their commands, and the first of them stays the first.
-/

namespace IncrementalBuild

/-! ### Blocks that grow -/

/-- The last of some blocks has been given more commands, and more blocks come after it. -/
inductive Grows : List Block → List Block → Prop
  | more (before : List Block) (last : Block) (commands : List String) (after : List Block) :
    Grows (before ++ [last])
      (before ++ { last with commands := last.commands ++ commands } :: after)

namespace Grows

variable {blocks blocks' : List Block} {block : Block}

/-- A block is still there, and only the last has been given commands. -/
theorem exists_of_mem (h : Grows blocks blocks') (hblock : block ∈ blocks) :
  ∃ commands, { block with commands := block.commands ++ commands } ∈ blocks'
    ∧ (commands = [] ∨ (Block.targets blocks).getLast? = some block.target)
  := by
  obtain ⟨before, last, commands, after⟩ := h
  rcases List.mem_append.1 hblock with hbefore | hlast
  · refine ⟨[], List.mem_append_left _ ?_, .inl rfl⟩
    rwa [List.append_nil]
  · rw [List.mem_singleton.1 hlast]
    refine ⟨commands, List.mem_append_right _ List.mem_cons_self, .inr ?_⟩
    rw [Block.targets, List.map_append, List.map_singleton, List.getLast?_concat]

theorem head?_targets (h : Grows blocks blocks') :
  (Block.targets blocks').head? = (Block.targets blocks).head?
  := by
  obtain ⟨before, last, commands, after⟩ := h
  cases before <;> rfl

/-- The names are mentioned in the same order, and others after them. -/
theorem mentions_prefix (h : Grows blocks blocks') :
  (blocks.flatMap Block.mentions).eraseDups <+: (blocks'.flatMap Block.mentions).eraseDups
  := by
  obtain ⟨before, last, commands, after⟩ := h
  have hmentions : (before ++ { last with commands := last.commands ++ commands } :: after).flatMap
        Block.mentions
      = (before ++ [last]).flatMap Block.mentions ++ after.flatMap Block.mentions := by
    simp [Block.mentions]
  rw [hmentions, List.eraseDups_append]
  exact List.prefix_append _ _

end Grows

namespace Graph

variable {g g' : Graph} {blocks blocks' : List Block} {id : Nat}

/-- The graph of blocks that grow keeps the numbers of the names. -/
theorem Records.hasName_of_grows (h : g.Records blocks) (h' : g'.Records blocks')
    (hgrows : Grows blocks blocks') {name : String} (hname : g.HasName id name) :
  g'.HasName id name
  := by
  have hprefix := hgrows.mentions_prefix
  rw [← h.names, ← h'.names] at hprefix
  rw [hasName_iff_getElem?_names] at hname ⊢
  obtain ⟨rest, hrest⟩ := hprefix
  obtain ⟨hlt, -⟩ := List.getElem?_eq_some_iff.1 hname
  rwa [← hrest, List.getElem?_append_left hlt]

/-- A target keeps its dependencies and its commands, and only the last has more commands. -/
theorem Records.target_of_grows (h : g.Records blocks) (h' : g'.Records blocks')
    (hgrows : Grows blocks blocks') {node : Node} (hnode : g.nodes[id]? = some node)
    (hdeclared : node.declared = true) :
  ∃ node', g'.nodes[id]? = some node' ∧ node'.declared = true
    ∧ node'.dependencies = node.dependencies
    ∧ ∃ commands, node'.commands.toList = node.commands.toList ++ commands
      ∧ (commands = [] ∨ (Block.targets blocks).getLast? = some node.name)
  := by
  have hmono : ∀ id name, g.HasName id name → g'.HasName id name := fun _ _ =>
    h.hasName_of_grows h' hgrows
  have htarget := h.isDeclared_iff.1 ⟨id, node, hnode, rfl, hdeclared⟩
  obtain ⟨block, hblock, hname⟩ := List.mem_map.1 htarget
  have hrealizes := h.realizes_of_hasName hblock hnode hname.symm
  obtain ⟨commands, hblock', hlast⟩ := hgrows.exists_of_mem hblock
  obtain ⟨node', hnode', hname'⟩ := hmono id node.name ⟨node, hnode, rfl⟩
  have hrealizes' := h'.realizes_of_hasName hblock' hnode' (hname'.trans hname.symm)
  refine ⟨node', hnode', hrealizes'.declared, ?_, commands, ?_, hname ▸ hlast⟩
  · -- the numbers of the same names are the same
    apply Array.toList_inj.1
    exact List.left_unique_forall₂' g'.biUnique_hasName.1 hrealizes'.dependencies
      (hrealizes.dependencies.imp hmono)
  · rw [hrealizes'.commands, hrealizes.commands]

theorem Records.first_of_grows (h : g.Records blocks) (h' : g'.Records blocks')
    (hgrows : Grows blocks blocks') :
  g'.first = g.first
  := by
  have hfirst := rel_hasName_mono (fun _ _ => h.hasName_of_grows h' hgrows) h.first
  have hfirst' := h'.first
  rw [hgrows.head?_targets] at hfirst'
  generalize (Block.targets blocks).head? = name? at hfirst hfirst'
  generalize g.first = first at hfirst
  generalize g'.first = first' at hfirst'
  cases hfirst with
  | some hname =>
    cases hfirst' with
    | some hname' => rw [hname.id_eq hname']
  | none =>
    cases hfirst'
    rfl

end Graph

namespace BuildFile

open Text

variable {cs body : List Char} {e : Error} {text : String}

/-! ### The lines of a text that goes on -/

theorem linesFrom_append_feed (h : '\n' ∉ body) (number offset : Nat) (rest : List Char) :
  linesFrom number offset (body ++ '\n' :: rest)
    = .ofBody number offset body true
      :: linesFrom (number + 1) (offset + byteLength body + 1) rest
  := by
  have htake := takeWhile_append_of_notMem h rest
  have hdrop := dropWhile_append_of_notMem h rest
  obtain ⟨c, cs, hcs⟩ := List.exists_cons_of_ne_nil (List.append_ne_nil_of_right_ne_nil body
    (List.cons_ne_nil '\n' rest))
  rw [hcs] at htake hdrop ⊢
  rw [linesFrom, htake]
  split
  · next hnil => cases hnil.symm.trans hdrop
  · next hcons =>
    rw [hcons] at hdrop
    rw [(List.cons.inj hdrop).2]

/-- A text that is empty or ends with a line feed has the same lines when it goes on, and the
numbers and the offsets go on behind them. -/
theorem linesFrom_append (h : ∀ c ∈ cs.getLast?, c = '\n') (number offset : Nat)
    (rest : List Char) :
  linesFrom number offset (cs ++ rest)
    = linesFrom number offset cs
      ++ linesFrom (number + cs.count '\n') (offset + byteLength cs) rest
  := by
  fun_induction linesFrom number offset cs with
  | case1 => simp
  | case2 number offset c cs body hdrop =>
    have hlast := List.getLast?_eq_some_getLast (List.cons_ne_nil c cs)
    have hmem := List.mem_of_getLast? hlast
    rw [h _ hlast] at hmem
    cases notMem_of_dropWhile_eq_nil hdrop hmem
  | case3 number offset c cs body d tail hdrop ih =>
    have hsplit : c :: cs = body ++ '\n' :: tail := eq_append_of_dropWhile_eq_cons hdrop
    have htail : ∀ d ∈ tail.getLast?, d = '\n' := by
      intro d hd
      apply h d
      rw [hsplit, List.getLast?_append, List.getLast?_cons, Option.mem_def.1 hd]
      rfl
    have hcount : number + (c :: cs).count '\n' = number + 1 + tail.count '\n' := by
      rw [count_of_dropWhile_eq_cons hdrop]
      omega
    have hlength : offset + byteLength (c :: cs)
        = offset + byteLength body + 1 + byteLength tail := by
      have hfeed : '\n'.utf8Size = 1 := by decide
      rw [hsplit, byteLength_append, byteLength_cons]
      omega
    rw [hcount, hlength, hsplit, List.append_assoc, List.cons_append,
      linesFrom_append_feed notMem_takeWhile, ih htail]
    rfl

/-- Reading lines and then more lines. -/
theorem addLines_append (reading : Reading) (lines more : List Line) :
  reading.addLines (lines ++ more) = (reading.addLines lines).bind fun last => last.addLines more
  := by
  induction lines generalizing reading with
  | nil => rfl
  | cons line lines ih =>
    rw [List.cons_append, Reading.addLines, Reading.addLines]
    cases reading.addLine line with
    | ok next => exact ih next
    | error e => rfl

/-- The error about a line stays the error, however the text goes on. -/
theorem parse_append_error (hfed : ∀ c ∈ text.toList.getLast?, c = '\n') (more : String)
    (h : parse text = .error e) (he : e ≠ .noTarget) :
  parse (text ++ more) = .error e
  := by
  have hadd := addLines_of_parse_error h he
  rw [parse, String.toList_append, Text.lines, linesFrom_append hfed, addLines_append, ← Text.lines,
    hadd]
  rfl

/-! ### The blocks of a text that goes on -/

/-- A block goes on with the commands up to the next rule. -/
theorem exists_foldl_extend_singleton (block : Block) (lines : List (List Char)) :
  ∃ commands after, lines.foldl extend [block]
    = { block with commands := block.commands ++ commands } :: after
  := by
  induction lines using List.reverseRecOn with
  | nil => exact ⟨[], [], by simp⟩
  | append_singleton lines line ih =>
    obtain ⟨commands, after, ih⟩ := ih
    rw [List.foldl_append, ih, List.foldl_cons, List.foldl_nil]
    cases after with
    | nil =>
      unfold extend
      split
      · exact ⟨commands, _, rfl⟩
      · split
        · exact ⟨commands ++ [String.ofList (trim line.tail)], [], by
            simp [List.modifyLast, List.modifyLast.go]⟩
        · exact ⟨commands, [], rfl⟩
    | cons next after =>
      rw [← List.singleton_append, extend_append (.inr (List.cons_ne_nil next after))]
      exact ⟨commands, extend (next :: after) line, rfl⟩

theorem grows_blocksOf (hfed : text.toList.getLast? = some '\n')
    (hne : blocksOf (contents text) ≠ []) (more : String) :
  Grows (blocksOf (contents text)) (blocksOf (contents (text ++ more)))
  := by
  rw [contents_append hfed, blocksOf_of_fed hfed, blocksOf, blocksOf, List.foldl_append, ← blocksOf]
  rw [blocksOf_of_fed hfed] at hne
  obtain ⟨before, last, hblocks⟩ : ∃ before last, blocksOf (fedLines text) = before ++ [last] :=
    ⟨_, _, (List.dropLast_append_getLast hne).symm⟩
  obtain ⟨commands, after, hfold⟩ := exists_foldl_extend_singleton last (contents more)
  rw [hblocks, foldl_extend_append (List.cons_ne_nil last []), hfold]
  exact .more before last commands after

/-! ### The graph of a text that goes on -/

/-- A graph goes on with the graph of some lines: it has the same numbers for the same names, the
same targets with the same dependencies and commands, but for further commands of the target that
the lines declare last, and the same first target. -/
structure Continues (lines : List (List Char)) (g g' : Graph) : Prop where
  hasName : ∀ id name, g.HasName id name → g'.HasName id name
  target : ∀ (id : Nat) (node : Node), g.nodes[id]? = some node → node.declared = true →
    ∃ node', g'.nodes[id]? = some node' ∧ node'.declared = true
      ∧ node'.dependencies = node.dependencies
      ∧ ∃ commands, node'.commands.toList = node.commands.toList ++ commands
        ∧ (commands = []
          ∨ ∃ rule ∈ (lines.filter isRuleLine).getLast?, Declares rule node.name)
  first : g'.first = g.first

/-- The last of the blocks is that of the last rule. -/
theorem exists_declares_of_getLast? {lines : List (List Char)} {name : String}
    (h : Grammatical lines) (hlast : (Block.targets (blocksOf lines)).getLast? = some name) :
  ∃ rule ∈ (lines.filter isRuleLine).getLast?, Declares rule name
  := by
  rw [targets_blocksOf, List.getLast?_map, Option.map_eq_some_iff] at hlast
  obtain ⟨rule, hrule, hname⟩ := hlast
  obtain ⟨hmem, hisRule⟩ := List.mem_filter.1 (List.mem_of_getLast? hrule)
  obtain ⟨only, honly⟩ := List.length_eq_one_iff.1 (h.name rule hmem hisRule)
  rw [honly, List.headD_cons] at hname
  exact ⟨rule, hrule, hisRule, h.colon rule hmem hisRule, hname ▸ honly⟩

/-- What is read from a text that is empty or ends with a line feed is still read when the text
goes on: an error about a line is the same error, to its labels; and if both texts are build files,
then the graph that is read goes on with the one that was read. -/
theorem parse_append (hfed : ∀ c ∈ text.toList.getLast?, c = '\n') (more : String) :
  (∀ e, parse text = .error e → e ≠ .noTarget → parse (text ++ more) = .error e)
    ∧ ∀ g g', parse text = .ok g → parse (text ++ more) = .ok g' → Continues (contents text) g g'
  := by
  refine ⟨fun _ => parse_append_error hfed more, fun g g' h h' => ?_⟩
  have hgrammatical := exists_parse_iff_grammatical.1 ⟨g, h⟩
  have hblocks := (printable_blocksOf hgrammatical fun _ => notMem_contents).nonempty
  have hrecords := records_of_parse h
  have hrecords' := records_of_parse h'
  have hlast : text.toList.getLast? = some '\n' := by
    cases hlast : text.toList.getLast? with
    | none =>
      -- an empty text declares nothing
      rw [contents, List.getLast?_eq_none_iff.1 hlast] at hblocks
      exact absurd rfl hblocks
    | some c => rw [hfed c hlast]
  have hgrows := grows_blocksOf hlast hblocks more
  constructor
  case hasName => exact fun _ _ => hrecords.hasName_of_grows hrecords' hgrows
  case first => exact hrecords.first_of_grows hrecords' hgrows
  case target =>
    intro id node hnode hdeclared
    obtain ⟨node', hnode', hdeclared', hdependencies, commands, hcommands, hwhich⟩ :=
      hrecords.target_of_grows hrecords' hgrows hnode hdeclared
    exact ⟨node', hnode', hdeclared', hdependencies, commands, hcommands,
      hwhich.imp_right (exists_declares_of_getLast? hgrammatical)⟩

/-- A program that depends on a library of which nothing else is said. -/
def begun : String :=
  "app: lib\n\tcc app\n"

/-- One more command for the program, and a rule for the library. -/
def ending : String :=
  "\tstrip app\r\nlib: src\n"

theorem grammatical_begun :
  Grammatical (contents begun)
  := by decide

theorem grammatical_begun_append :
  Grammatical (contents (begun ++ ending))
  := by decide

theorem parse_append_ending :
  (∃ e, parse repetitive = .error e ∧ e.fault? = some (.duplicateTarget "é")
      ∧ parse (repetitive ++ ending) = .error e)
    ∧ ∃ g g', parse begun = .ok g ∧ parse (begun ++ ending) = .ok g'
      ∧ Continues (contents begun) g g'
  := by
  constructor
  · obtain ⟨e, he, -, hfault⟩ := exists_error_iff_firstFault.2 firstFault_repetitive
    have hfed : ∀ c ∈ repetitive.toList.getLast?, c = '\n' := by
      rintro _ ⟨⟩
      rfl
    refine ⟨e, he, hfault, (parse_append hfed ending).1 e he ?_⟩
    rintro rfl
    cases hfault
  · obtain ⟨g, hg⟩ := exists_parse_iff_grammatical.2 grammatical_begun
    obtain ⟨g', hg'⟩ := exists_parse_iff_grammatical.2 grammatical_begun_append
    have hfed : ∀ c ∈ begun.toList.getLast?, c = '\n' := by
      rintro _ ⟨⟩
      rfl
    exact ⟨g, g', hg, hg', (parse_append hfed ending).2 g g' hg hg'⟩

end BuildFile

end IncrementalBuild
