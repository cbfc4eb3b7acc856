import IncrementalBuild.Proofs.BuildFile.Printing
import IncrementalBuild.Proofs.Graph.Likeness
import IncrementalBuild.Proofs.Graph.Root

/-!
# The order of the parts of a build file

A part of a build file is a rule with the commands and the blank lines that follow it.  A build
file may be put together from parts in any order: if it is read in one order, it is read in every
other, and the graphs that are read have the same names and say the same of each of them.  They
differ in the numbers of their nodes, and in which node is declared first.

The lines of a text of parts are those of the parts, and so are the blocks that they describe.
The conditions on the lines of a build file do not depend on the order of the lines, as long as
the first is a rule; and what the graph of blocks says of a name does not depend on the order of
the blocks.
-/

namespace IncrementalBuild

/-! ### Graphs of the same blocks -/

namespace Graph

variable {g g' : Graph} {blocks blocks' : List Block} {block : Block}

theorem Realizes.map_name_dependencies {id : g.Id} (h : g.Realizes block (g.node id)) :
  (g.dependencies id).map g.name = block.dependencies
  := by
  have hnames := h.dependencies
  rw [← map_val_dependencies, List.forall₂_map_left_iff] at hnames
  rw [← List.forall₂_eq_eq_eq, List.forall₂_map_left_iff]
  exact hnames.imp fun dependency _ => (hasName_name dependency).name_eq

/-- What the graph of blocks says of a name depends on the blocks alone, not on their order. -/
theorem Records.sameEntry (h : g.Records blocks) (h' : g'.Records blocks')
    (hblocks : ∀ block, block ∈ blocks ↔ block ∈ blocks') {a : g.Id} {b : g'.Id}
    (hname : g.name a = g'.name b) :
  g.SameEntry g' a b
  := by
  have ha : g.nodes[a.val]? = some (g.node a) := Array.getElem?_eq_getElem a.isLt
  have hb : g'.nodes[b.val]? = some (g'.node b) := Array.getElem?_eq_getElem b.isLt
  by_cases htarget : g.name a ∈ Block.targets blocks
  · obtain ⟨block, hblock, hblockName⟩ := List.mem_map.1 htarget
    have hleft := h.realizes_of_hasName hblock ha hblockName.symm
    have hright := h'.realizes_of_hasName ((hblocks block).1 hblock) hb
      (hblockName.trans hname).symm
    constructor
    case declared => rw [hleft.declared, hright.declared]
    case dependencies => rw [hleft.map_name_dependencies, hright.map_name_dependencies]
    case commands =>
      apply Array.toList_inj.1
      rw [hleft.commands, hright.commands]
  · have htarget' : g'.name b ∉ Block.targets blocks' := by
      rw [← hname]
      simpa [hblocks] using htarget
    -- a name that is no target has nothing but its name
    have hleft : g.node a = .mentioned (g.name a) := h.mentioned a _ ha htarget
    have hright : g'.node b = .mentioned (g'.name b) := h'.mentioned b _ hb htarget'
    constructor
    case declared => rw [hleft, hright]; rfl
    case dependencies =>
      have hnone : (g.dependencies a).map Fin.val = [] := by
        rw [map_val_dependencies, hleft]
        rfl
      have hnone' : (g'.dependencies b).map Fin.val = [] := by
        rw [map_val_dependencies, hright]
        rfl
      rw [List.map_eq_nil_iff.1 hnone, List.map_eq_nil_iff.1 hnone']
      rfl
    case commands => rw [hleft, hright]; rfl

/-- Which names a graph of blocks has does not depend on the order of the blocks. -/
theorem Records.mem_names_iff (h : g.Records blocks) (h' : g'.Records blocks')
    (hblocks : ∀ block, block ∈ blocks ↔ block ∈ blocks') (name : String) :
  name ∈ g.names ↔ name ∈ g'.names
  := by simp [h.names, h'.names, hblocks]

/-- The node declared first is that of the first block. -/
theorem Carries.exists_first? {name : String} (h : g.Carries blocks)
    (hhead : (Block.targets blocks).head? = some name) :
  ∃ id, g.first? = some id ∧ g.name id = name
  := by
  have hfirst := h.first
  rw [hhead, ← map_val_first?] at hfirst
  cases hid : g.first? with
  | none =>
    rw [hid] at hfirst
    cases hfirst
  | some id =>
    rw [hid] at hfirst
    cases hfirst with
    | some hname => exact ⟨id, rfl, (hasName_name id).name_eq hname⟩

end Graph

namespace BuildFile

open Text

variable {lines lines' rest : List (List Char)} {line rule : List Char} {blocks more : List Block}
  {part : String} {parts parts' : List String}

/-! ### The blocks of lines -/

/-- The blocks that are there when a rule has been read are not changed any more. -/
theorem extend_append (hmore : isRuleLine line = true ∨ more ≠ []) :
  extend (blocks ++ more) line = blocks ++ extend more line
  := by
  unfold extend
  split
  · rw [List.append_assoc]
  · next hrule =>
    obtain ⟨before, last, rfl⟩ : ∃ before last, more = before ++ [last] :=
      ⟨_, _, (List.dropLast_append_getLast (hmore.resolve_left hrule)).symm⟩
    split
    · rw [← List.append_assoc, List.modifyLast_concat, List.modifyLast_concat, List.append_assoc]
    · rfl

theorem extend_ne_nil (hmore : isRuleLine line = true ∨ more ≠ []) :
  extend more line ≠ []
  := by
  unfold extend
  split
  · simp
  · next hrule =>
    have hne := hmore.resolve_left hrule
    split
    · obtain ⟨before, last, rfl⟩ : ∃ before last, more = before ++ [last] :=
        ⟨_, _, (List.dropLast_append_getLast hne).symm⟩
      simp [List.modifyLast_concat]
    · exact hne

/-- Lines after some blocks go on with the last of these, and leave those before it. -/
theorem foldl_extend_append (hmore : more ≠ []) :
  lines.foldl extend (blocks ++ more) = blocks ++ lines.foldl extend more
  := by
  induction lines generalizing more with
  | nil => rfl
  | cons line lines ih =>
    rw [List.foldl_cons, List.foldl_cons, extend_append (.inr hmore)]
    exact ih (extend_ne_nil (.inr hmore))

/-- Lines that begin with a rule describe the same blocks, whatever is before them. -/
theorem foldl_extend (hlines : ∀ line ∈ lines.head?, isRuleLine line = true) :
  lines.foldl extend blocks = blocks ++ blocksOf lines
  := by
  cases lines with
  | nil => exact (List.append_nil blocks).symm
  | cons rule rest =>
    have hrule := hlines rule rfl
    have hextend : extend blocks rule = blocks ++ extend [] rule := by
      rw [← extend_append (.inl hrule), List.append_nil]
    rw [List.foldl_cons, hextend, foldl_extend_append (extend_ne_nil (.inl hrule))]
    rfl

/-- The targets of the blocks are those of the rules. -/
theorem targets_blocksOf (lines : List (List Char)) :
  Block.targets (blocksOf lines)
    = (lines.filter isRuleLine).map fun rule => (namesOf rule).headD ""
  := by
  induction lines using List.reverseRecOn with
  | nil => rfl
  | append_singleton lines line ih =>
    rw [blocksOf_snoc, List.filter_append, List.map_append, ← ih, extend]
    split
    · next hrule => simp [hrule]
    · next hrule =>
      split
      · cases hblocks : blocksOf lines using List.reverseRecOn with
        | nil => simp [hrule, List.modifyLast, List.modifyLast.go]
        | append_singleton before last => simp [hrule, List.modifyLast_concat]
      · simp [hrule]

/-! ### Lines in another order -/

/-- The lines of a build file in another order are a build file, if the first of them is a
rule. -/
theorem Grammatical.perm (h : Grammatical lines) (hperm : lines.Perm lines')
    (hrule : ∀ line ∈ lines'.head?, isRuleLine line = true) :
  Grammatical lines'
  := by
  constructor
  case notBlank =>
    obtain ⟨line, hline, hblank⟩ := h.notBlank
    exact ⟨line, hperm.mem_iff.1 hline, hblank⟩
  case first =>
    intro line hfind
    cases lines' with
    | nil => cases hfind
    | cons rule rest =>
      obtain ⟨hblank, htab⟩ := isRuleLine_iff.1 (hrule rule rfl)
      rw [List.find?_cons_of_pos (by simp [hblank])] at hfind
      rwa [← Option.some.inj hfind]
  case colon => exact fun line hline => h.colon line (hperm.mem_iff.2 hline)
  case name => exact fun line hline => h.name line (hperm.mem_iff.2 hline)
  case names => exact ((hperm.filter isRuleLine).flatMap_right namesOf).nodup_iff.1 h.names
  case dependencies => exact fun line hline => h.dependencies line (hperm.mem_iff.2 hline)

/-! ### Parts -/

/-- A text is a rule with the commands and the blank lines that follow it, and every line of it
ends in a line feed. -/
structure IsPart (part : String) : Prop where
  fed : part.toList.getLast? = some '\n'
  rule : ∃ rule rest, contents part = rule :: rest ∧ isRuleLine rule = true
    ∧ ∀ line ∈ rest, isRuleLine line = false

/-- The lines of a text that ends in a line feed, without the empty one behind the last line
feed. -/
def fedLines (part : String) : List (List Char) :=
  (contents part).dropLast

theorem contents_append (hfed : part.toList.getLast? = some '\n') (text : String) :
  contents (part ++ text) = fedLines part ++ contents text
  := by
  obtain ⟨body, hbody⟩ := List.getLast?_eq_some_iff.1 hfed
  rw [fedLines, contents, contents, contents, String.toList_append, hbody, List.append_assoc,
    List.singleton_append, List.splitOn_append_cons_self, List.splitOn_append_cons_self,
    List.map_append, List.map_append]
  exact congrArg (· ++ _) (List.dropLast_concat).symm

theorem contents_of_fed (hfed : part.toList.getLast? = some '\n') :
  contents part = fedLines part ++ [[]]
  := by
  have h := contents_append hfed ""
  rwa [String.append_empty] at h

theorem contents_join (hfed : ∀ part ∈ parts, part.toList.getLast? = some '\n') :
  contents (String.join parts) = parts.flatMap fedLines ++ [[]]
  := by
  induction parts with
  | nil => rfl
  | cons part parts ih =>
    obtain ⟨hpart, hparts⟩ := List.forall_mem_cons.1 hfed
    rw [String.join_cons, contents_append hpart, ih hparts, List.flatMap_cons, List.append_assoc]

theorem blocksOf_of_fed (hfed : part.toList.getLast? = some '\n') :
  blocksOf (contents part) = blocksOf (fedLines part)
  := by rw [contents_of_fed hfed, blocksOf_snoc, extend_of_isBlankLine rfl]

namespace IsPart

/-- The first line of a part is its rule. -/
theorem exists_rule (h : IsPart part) :
  ∃ rule, (fedLines part).head? = some rule ∧ isRuleLine rule = true
  := by
  obtain ⟨rule, rest, hcontents, hrule, -⟩ := h.rule
  have hfed := contents_of_fed h.fed
  rw [hcontents] at hfed
  cases hlines : fedLines part with
  | nil =>
    rw [hlines] at hfed
    cases hfed
    cases hrule
  | cons line lines =>
    rw [hlines] at hfed
    cases hfed
    exact ⟨rule, rfl, hrule⟩

theorem isRuleLine_head (h : IsPart part) :
  ∀ line ∈ (fedLines part).head?, isRuleLine line = true
  := by
  obtain ⟨rule, hhead, hrule⟩ := h.exists_rule
  rw [hhead]
  rintro _ ⟨⟩
  exact hrule

end IsPart

section

variable (hparts : ∀ part ∈ parts, IsPart part)

include hparts

/-- A text of parts describes the blocks of its parts. -/
theorem blocksOf_join :
  blocksOf (contents (String.join parts)) = parts.flatMap fun part => blocksOf (contents part)
  := by
  have hfold : ∀ blocks, (parts.flatMap fedLines).foldl extend blocks
      = blocks ++ parts.flatMap fun part => blocksOf (contents part) := by
    induction parts with
    | nil => exact fun blocks => (List.append_nil blocks).symm
    | cons part parts ih =>
      intro blocks
      obtain ⟨hpart, hparts⟩ := List.forall_mem_cons.1 hparts
      rw [List.flatMap_cons, List.foldl_append, foldl_extend hpart.isRuleLine_head, ih hparts,
        List.flatMap_cons, blocksOf_of_fed hpart.fed, List.append_assoc]
  rw [contents_join fun part hpart => (hparts part hpart).fed, blocksOf_snoc,
    extend_of_isBlankLine rfl, blocksOf, hfold, List.nil_append]

/-- A text of parts begins with the rule of its first part. -/
theorem head?_contents_join (hnil : parts ≠ []) :
  ∃ first ∈ parts.head?, ∃ rule ∈ (contents first).head?, isRuleLine rule = true
    ∧ ∃ rest, contents (String.join parts) = rule :: rest
  := by
  obtain ⟨first, others, rfl⟩ := List.exists_cons_of_ne_nil hnil
  obtain ⟨hfirst, hothers⟩ := List.forall_mem_cons.1 hparts
  obtain ⟨rule, hhead, hrule⟩ := hfirst.exists_rule
  obtain ⟨rest, hrest⟩ := List.head?_eq_some_iff.1 hhead
  refine ⟨first, rfl, rule, ?_, hrule, rest ++ contents (String.join others), ?_⟩
  · rw [contents_of_fed hfirst.fed, hrest]
    rfl
  · rw [String.join_cons, contents_append hfirst.fed, hrest, List.cons_append]

end

/-- The parts of a build file can be put in any order: the names are the same, and so is what is
said of each of them, and the target declared first is that of the part that is first now. -/
theorem parse_perm {g : Graph} (hparts : ∀ part ∈ parts, IsPart part) (hperm : parts.Perm parts')
    (hparse : parse (String.join parts) = .ok g) :
  ∃ g', parse (String.join parts') = .ok g'
    ∧ (∀ name, name ∈ g'.names ↔ name ∈ g.names)
    ∧ (∀ a b, g.name a = g'.name b → g.SameEntry g' a b)
    ∧ ∃ first ∈ parts'.head?, ∃ rule ∈ (contents first).head?, ∃ id,
        g'.first? = some id ∧ Declares rule (g'.name id)
  := by
  have hparts' : ∀ part ∈ parts', IsPart part := fun part hpart =>
    hparts part (hperm.mem_iff.2 hpart)
  have hgrammatical := exists_parse_iff_grammatical.1 ⟨g, hparse⟩
  have hlines : (contents (String.join parts)).Perm (contents (String.join parts')) := by
    rw [contents_join fun part hpart => (hparts part hpart).fed,
      contents_join fun part hpart => (hparts' part hpart).fed]
    exact (hperm.flatMap_right fedLines).append_right _
  have hnil : parts' ≠ [] := by
    rintro rfl
    obtain ⟨line, hline, hblank⟩ := hgrammatical.notBlank
    rw [hperm.eq_nil] at hline
    cases List.mem_singleton.1 hline
    cases hblank
  obtain ⟨first, hfirst, rule, hhead, hrule, rest, hcontents⟩ := head?_contents_join hparts' hnil
  have hgrammatical' : Grammatical (contents (String.join parts')) := by
    apply hgrammatical.perm hlines
    rw [hcontents]
    rintro _ ⟨⟩
    exact hrule
  obtain ⟨g', hparse'⟩ := exists_parse_iff_grammatical.2 hgrammatical'
  have hrecords := records_of_parse hparse
  have hrecords' := records_of_parse hparse'
  have hblocks : ∀ block, block ∈ blocksOf (contents (String.join parts))
      ↔ block ∈ blocksOf (contents (String.join parts')) := by
    intro block
    rw [blocksOf_join hparts, blocksOf_join hparts']
    exact (hperm.flatMap_right _).mem_iff
  refine ⟨g', hparse', fun name => (hrecords.mem_names_iff hrecords' hblocks name).symm,
    fun a b => hrecords.sameEntry hrecords' hblocks, first, hfirst, rule, hhead, ?_⟩
  have hmem : rule ∈ contents (String.join parts') := by
    rw [hcontents]
    exact List.mem_cons_self
  obtain ⟨name, hname⟩ := List.length_eq_one_iff.1 (hgrammatical'.name rule hmem hrule)
  have htarget : (Block.targets (blocksOf (contents (String.join parts')))).head? = some name := by
    rw [targets_blocksOf, hcontents, List.filter_cons_of_pos hrule, List.map_cons, hname]
    rfl
  obtain ⟨id, hid, rfl⟩ := hrecords'.exists_first? htarget
  exact ⟨id, hid, hrule, hgrammatical'.colon rule hmem hrule, hname⟩

/-- A program depends on a library, which is declared after it; a carriage return ends the first
line, and an empty line stands between the two. -/
def programPart : String :=
  "app: lib\r\n\tcc app\n\n"

/-- The library, which has two commands. -/
def libraryPart : String :=
  "lib: src\n\tcc -c lib\n\tar lib\n"

theorem isPart_of_mem {part : String} (h : part ∈ [programPart, libraryPart]) :
  IsPart part
  := by
  rcases List.mem_pair.1 h with rfl | rfl
  · apply IsPart.mk (by decide)
    use "app: lib".toList, ["\tcc app".toList, [], []]
    decide
  · apply IsPart.mk (by decide)
    use "lib: src".toList, ["\tcc -c lib".toList, "\tar lib".toList, []]
    decide

theorem grammatical_parts :
  Grammatical (contents (String.join [programPart, libraryPart]))
  := by decide

theorem parse_perm_library :
  ∃ g g', parse (String.join [programPart, libraryPart]) = .ok g
    ∧ parse (String.join [libraryPart, programPart]) = .ok g'
    ∧ (∀ name, name ∈ g'.names ↔ name ∈ g.names)
    ∧ (∀ a b, g.name a = g'.name b → g.SameEntry g' a b)
    ∧ ∃ id, g'.first? = some id ∧ Declares "lib: src".toList (g'.name id)
  := by
  obtain ⟨g, hg⟩ := exists_parse_iff_grammatical.2 grammatical_parts
  obtain ⟨g', hg', hnames, hentry, first, hfirst, rule, hrule, id, hid, hdeclares⟩ :=
    parse_perm (fun _ => isPart_of_mem) (List.Perm.swap libraryPart programPart []) hg
  cases hfirst
  cases hrule
  exact ⟨g, g', hg, hg', hnames, hentry, id, hid, hdeclares⟩

end BuildFile

end IncrementalBuild
