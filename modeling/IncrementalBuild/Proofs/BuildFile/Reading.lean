import IncrementalBuild.BuildFile.Parser
import IncrementalBuild.Proofs.BuildFile.Scanning
import IncrementalBuild.Proofs.Graph.Operation

/-!
# What is known while a build file is read

`Reads earlier reading` relates what has been read to the lines it was read from: these
have no fault, the declared names are those the lines declare, and there is a target to add
commands to, and a first one, as soon as there is a rule.

Reading a line that has no fault keeps this, and reading one with a fault ends with an error
that tells the fault and the number of the line.  So it is for any number of lines, since
what each of them keeps they all keep, and the error is about the first line that has a fault.

`Listing` says the same while the dependencies of a rule are added one after the other.
-/

namespace IncrementalBuild.BuildFile

open Text

/-! ### One line, and any number of lines -/

namespace Reading

/-- What reading a line comes to. -/
theorem addLine_cases (reading : Reading) (line : Line) :
  (isBlankLine line.content = true ∧ reading.addLine line = .ok reading)
    ∨ (isCommandLine line.content = true
      ∧ reading.addLine line = reading.addCommand line (trim line.content.tail))
    ∨ (isRuleLine line.content = true ∧ ∃ rule, Rule.parse line.content = .ok rule
      ∧ reading.addLine line = reading.addRule line rule)
    ∨ (isRuleLine line.content = true ∧ ∃ flaw, Rule.parse line.content = .error flaw
      ∧ reading.addLine line
        = .error (.malformed flaw.kind line.number (spanAt line flaw.offset flaw.length)))
  := by
  unfold addLine
  by_cases hblank : isBlankLine line.content = true
  · rw [ofContent_of_isBlankLine hblank]
    exact .inl ⟨hblank, rfl⟩
  · rcases isRuleLine_or_isCommandLine (by simpa using hblank) with hrule | hcommand
    · rw [ofContent_of_isRuleLine hrule]
      cases hparse : Rule.parse line.content with
      | ok rule => exact .inr (.inr (.inl ⟨hrule, rule, rfl, rfl⟩))
      | error flaw => exact .inr (.inr (.inr ⟨hrule, flaw, rfl, rfl⟩))
    · rw [ofContent_of_isCommandLine hcommand]
      exact .inr (.inl ⟨hcommand, rfl⟩)

variable {earlier lines : List Line} {reading after : Reading} {e : Error}
  (Inv : List Line → Reading → Prop)
  (hline : ∀ earlier line reading after, Inv earlier reading → reading.addLine line = .ok after →
    Inv (earlier ++ [line]) after)

include hline

/-- What every line that is read keeps holds when all lines have been read. -/
theorem addLines_kept (h : Inv earlier reading) (hadd : reading.addLines lines = .ok after) :
  Inv (earlier ++ lines) after
  := by
  induction lines generalizing earlier reading with
  | nil =>
    cases hadd
    rwa [List.append_nil]
  | cons line lines ih =>
    rw [addLines] at hadd
    split at hadd
    · next hnext =>
      rw [List.append_cons]
      apply ih (hline _ _ _ _ h hnext) hadd
    · cases hadd

/-- What every line that is read keeps holds before the line that ends the reading with an
error. -/
theorem addLines_stopped (h : Inv earlier reading) (hadd : reading.addLines lines = .error e) :
  ∃ before line rest last, lines = before ++ line :: rest ∧ Inv (earlier ++ before) last
    ∧ last.addLine line = .error e
  := by
  induction lines generalizing earlier reading with
  | nil => cases hadd
  | cons line lines ih =>
    rw [addLines] at hadd
    split at hadd
    · next hnext =>
      obtain ⟨before, stopping, rest, last, rfl, hinv, hstop⟩ := ih (hline _ _ _ _ h hnext) hadd
      rw [← List.append_cons] at hinv
      exact ⟨line :: before, stopping, rest, last, rfl, hinv, hstop⟩
    · next hstop =>
      cases hadd
      exact ⟨[], line, lines, reading, rfl, by rwa [List.append_nil], hstop⟩

end Reading

/-! ### A text -/

section

variable {text : String} {g : Graph} {e : Error}

/-- A graph that is read from a text has been read from its lines, and has a first node. -/
theorem addLines_of_parse (h : parse text = .ok g) :
  ∃ reading id, Reading.start.addLines (lines text.toList) = .ok reading ∧ reading.graph = g
    ∧ g.first = some id
  := by
  unfold parse at h
  split at h
  · cases h
  · next reading hadd =>
    split at h
    · cases h
    · next id hfirst =>
      cases h
      exact ⟨reading, id, hadd, rfl, hfirst⟩

/-- An error about a text is met at one of its lines, unless it is that there is no target. -/
theorem addLines_of_parse_error (h : parse text = .error e) (he : e ≠ .noTarget) :
  Reading.start.addLines (lines text.toList) = .error e
  := by
  unfold parse at h
  split at h
  · next hadd =>
    cases h
    exact hadd
  · split at h
    · cases h
      exact absurd rfl he
    · cases h

end

/-! ### The dependencies of a rule -/

/-- After the graph `start` nothing was done but to give dependencies to a declared target,
and `names` are all dependencies it has. -/
structure Listing (start : Graph) (target : Nat) (name : String) (names : List String)
    (g : Graph) : Prop where
  isDeclared : ∀ other, g.IsDeclared other ↔ start.IsDeclared other
  first : g.first = start.first
  plain : g.Plain
  node : ∃ node : Node, g.nodes[target]? = some node ∧ node.name = name ∧ node.declared = true
    ∧ List.Forall₂ g.HasName node.dependencies.toList names
  nodup : names.Nodup

namespace Listing

variable {start g after : Graph} {target id : Nat} {name dependency : String}
  {names : List String} {line : Line} {words : List Word}

/-- A dependency that is added is new. -/
theorem of_depend (h : Listing start target name names g)
    (hdepend : g.depend target dependency = (after, .ok id)) :
  Listing start target name (names ++ [dependency]) after
  := by
  obtain ⟨node, hnode, hname, hdeclared, hnames⟩ := h.node
  have hdepending := Graph.depending_depend dependency hnode
  rw [hdepend] at hdepending
  obtain ⟨hnew, next, hnext, hnextName, hnextDeclared, hnextNames⟩ :=
    hdepending.exists_node hnode hnames
  constructor
  case isDeclared =>
    intro other
    rw [hdepending.isDeclared_iff, h.isDeclared]
  case first => rw [hdepending.first, h.first]
  case plain => apply hdepending.plain hnode hdeclared h.plain
  case node =>
    exact ⟨next, hnext, hnextName.trans hname, hnextDeclared.trans hdeclared, hnextNames⟩
  case nodup =>
    rw [List.nodup_append_comm]
    apply List.Nodup.cons hnew h.nodup

/-- A dependency that is refused is there. -/
theorem of_depend_error {e : DuplicateDependency} (h : Listing start target name names g)
    (hdepend : g.depend target dependency = (after, .error e)) :
  e = ⟨name, dependency⟩ ∧ dependency ∈ names
  := by
  obtain ⟨node, hnode, rfl, -, hnames⟩ := h.node
  have hdepending := Graph.depending_depend dependency hnode
  rw [hdepend] at hdepending
  apply hdepending.eq_of_error hnode hnames

theorem of_addDependencies (h : Listing start target name names g)
    (hadd : Reading.addDependencies line target g words = .ok after) :
  Listing start target name (names ++ words.map Word.text) after
  := by
  induction words generalizing g names with
  | nil =>
    cases hadd
    rwa [List.map_nil, List.append_nil]
  | cons word words ih =>
    rw [Reading.addDependencies] at hadd
    split at hadd
    · next hdepend =>
      have := ih (h.of_depend hdepend) hadd
      rwa [List.append_assoc, List.singleton_append, ← List.map_cons] at this
    · cases hadd

/-- The error is about the first dependency that repeats an earlier one. -/
theorem of_addDependencies_error {e : Error} (h : Listing start target name names g)
    (hadd : Reading.addDependencies line target g words = .error e) :
  ∃ before word rest, words = before ++ word :: rest
    ∧ e = .duplicateDependency name word.text line.number (spanAt line word.offset word.length)
    ∧ RepeatsFirst (names ++ words.map Word.text) (names ++ before.map Word.text) word.text
        (rest.map Word.text)
  := by
  induction words generalizing g names with
  | nil => cases hadd
  | cons word words ih =>
    rw [Reading.addDependencies] at hadd
    split at hadd
    · next hdepend =>
      obtain ⟨before, repeated, rest, rfl, he, hrepeats⟩ := ih (h.of_depend hdepend) hadd
      rw [← List.append_cons, ← List.append_cons, ← List.map_cons, ← List.map_cons] at hrepeats
      exact ⟨word :: before, repeated, rest, rfl, he, hrepeats⟩
    · next hdepend =>
      cases hadd
      obtain ⟨rfl, hmem⟩ := h.of_depend_error hdepend
      refine ⟨[], word, words, rfl, rfl, ?_⟩
      rw [List.map_nil, List.append_nil, List.map_cons]
      exact ⟨rfl, h.nodup, hmem⟩

end Listing

/-! ### What has been read -/

/-- What has been read, and the lines it was read from. -/
structure Reads (earlier : List (List Char)) (reading : Reading) : Prop where
  clean : Clean earlier
  isDeclared : ∀ name, reading.graph.IsDeclared name ↔ ∃ line ∈ earlier, Declares line name
  current : reading.current.isSome = earlier.any isRuleLine
  first : reading.graph.first.isSome = earlier.any isRuleLine
  plain : reading.graph.Plain

theorem reads_start :
  Reads [] .start
  := by
  constructor
  case clean => apply clean_nil
  case isDeclared => simp [Reading.start]
  case current => rfl
  case first => rfl
  case plain => apply Graph.plain_empty

namespace Reads

variable {earlier : List (List Char)} {reading after : Reading} {line : Line} {e : Error}

/-- A line that is no rule and leaves the declarations as they are. -/
theorem snoc {content : List Char} (h : Reads earlier reading)
    (hclean : ∀ fault, ¬ Breaks earlier content fault) (hrule : isRuleLine content = false)
    (hdeclared : ∀ name, after.graph.IsDeclared name ↔ reading.graph.IsDeclared name)
    (hcurrent : after.current = reading.current) (hfirst : after.graph.first = reading.graph.first)
    (hplain : after.graph.Plain) :
  Reads (earlier ++ [content]) after
  := by
  constructor
  case clean => apply clean_snoc.2 ⟨h.clean, hclean⟩
  case isDeclared =>
    intro name
    have hnone : ¬ Declares content name := fun hdeclares => by simp [hdeclares.rule] at hrule
    rw [hdeclared, h.isDeclared]
    simp [or_and_right, exists_or, hnone]
  case current => simp [hcurrent, h.current, hrule]
  case first => simp [hfirst, h.first, hrule]
  case plain => apply hplain

/-! ### A command -/

theorem addCommand {text : List Char} (h : Reads earlier reading)
    (hcommand : isCommandLine line.content = true)
    (hadd : reading.addCommand line text = .ok after) :
  Reads (earlier ++ [line.content]) after
  := by
  unfold Reading.addCommand at hadd
  split at hadd
  · cases hadd
  · next target hcurrent =>
    cases hadd
    have hrules : earlier.any isRuleLine = true := by rw [← h.current, hcurrent, Option.isSome_some]
    apply h.snoc
    · intro fault
      apply not_breaks_of_isCommandLine hcommand hrules
    · apply isRuleLine_of_isCommandLine hcommand
    · intro name
      apply Graph.isDeclared_addCommand
    · rfl
    · apply Graph.first_addCommand
    · apply Graph.plain_addCommand _ h.plain

theorem addCommand_error {text : List Char} (h : Reads earlier reading)
    (hcommand : isCommandLine line.content = true)
    (hadd : reading.addCommand line text = .error e) :
  ∃ fault, Breaks earlier line.content fault ∧ e.line? = some line.number
    ∧ e.fault? = some fault
  := by
  unfold Reading.addCommand at hadd
  split at hadd
  · next hcurrent =>
    cases hadd
    refine ⟨_, .commandBeforeTarget hcommand ?_, rfl, rfl⟩
    have hrules := h.current
    rw [hcurrent] at hrules
    simpa using hrules.symm
  · cases hadd

/-! ### A rule -/

section

variable {rule : Rule} (h : Reads earlier reading)

include h

/-- A target has no dependencies when it is declared. -/
theorem listing_of_declare {g : Graph} {name : String} {id : Nat}
    (hdeclare : reading.graph.declare name = (g, .ok id)) :
  Listing g id name [] g
  := by
  have hdeclaring := Graph.declaring_declare reading.graph name
  rw [hdeclare] at hdeclaring
  obtain ⟨node, hnode, hname, hdeclared, hnone⟩ := hdeclaring.exists_node h.plain
  constructor
  case isDeclared => exact fun _ => Iff.rfl
  case first => rfl
  case plain => apply hdeclaring.plain h.plain
  case node => exact ⟨node, hnode, hname, hdeclared, by simp [hnone]⟩
  case nodup => apply List.nodup_nil

variable (hdeclares : Declares line.content rule.name.text)
  (hdependencies : rule.dependencies.map Word.text = dependenciesOf line.content)

include hdeclares hdependencies

theorem addRule (hadd : reading.addRule line rule = .ok after) :
  Reads (earlier ++ [line.content]) after
  := by
  unfold Reading.addRule at hadd
  dsimp only at hadd
  split at hadd
  · cases hadd
  · next g id hdeclare =>
    split at hadd
    · next graph hgraph =>
      cases hadd
      have hlisting := (h.listing_of_declare hdeclare).of_addDependencies hgraph
      rw [List.nil_append, hdependencies] at hlisting
      have hdeclaring := Graph.declaring_declare reading.graph rule.name.text
      rw [hdeclare] at hdeclaring
      have hnew : ∀ other ∈ earlier, ¬ Declares other rule.name.text := fun other hmem hother =>
        hdeclaring.not_isDeclared ((h.isDeclared _).2 ⟨other, hmem, hother⟩)
      constructor
      case clean =>
        apply clean_snoc.2 ⟨h.clean, fun _ => hdeclares.not_breaks hnew hlisting.nodup⟩
      case isDeclared =>
        intro name
        have hname : Declares line.content name ↔ name = rule.name.text := by
          constructor
          · exact fun hname => hname.name_eq hdeclares
          · rintro rfl
            apply hdeclares
        rw [hlisting.isDeclared, hdeclaring.isDeclared_iff, h.isDeclared, ← hname]
        simp [or_and_right, exists_or]
      case current => simp [hdeclares.rule]
      case first => simp [hlisting.first, hdeclaring.first, hdeclares.rule]
      case plain => apply hlisting.plain
    · cases hadd

theorem addRule_error (hadd : reading.addRule line rule = .error e) :
  ∃ fault, Breaks earlier line.content fault ∧ e.line? = some line.number
    ∧ e.fault? = some fault
  := by
  have hdeclaring := Graph.declaring_declare reading.graph rule.name.text
  unfold Reading.addRule at hadd
  dsimp only at hadd
  split at hadd
  · next hdeclare =>
    cases hadd
    rw [hdeclare] at hdeclaring
    obtain ⟨rfl, hdeclared⟩ := hdeclaring.eq_of_error
    exact ⟨_, .duplicateTarget hdeclares ((h.isDeclared _).1 hdeclared), rfl, rfl⟩
  · next g id hdeclare =>
    split at hadd
    · cases hadd
    · next hgraph =>
      cases hadd
      rw [hdeclare] at hdeclaring
      obtain ⟨before, word, rest, -, rfl, hrepeats⟩ :=
        (h.listing_of_declare hdeclare).of_addDependencies_error hgraph
      rw [List.nil_append, hdependencies] at hrepeats
      refine ⟨_, .duplicateDependency hdeclares ?_ hrepeats, rfl, rfl⟩
      intro other hmem hother
      apply hdeclaring.not_isDeclared ((h.isDeclared _).2 ⟨other, hmem, hother⟩)

end

/-! ### A line -/

/-- A blank line says nothing. -/
theorem snoc_blank {content : List Char} (h : Reads earlier reading)
    (hblank : isBlankLine content = true) :
  Reads (earlier ++ [content]) reading
  := by
  apply h.snoc
  · intro fault hbreaks
    cases hblank.symm.trans hbreaks.isBlankLine_eq_false
  · simp [isRuleLine, hblank]
  · intro name
    rfl
  · rfl
  · rfl
  · apply h.plain

/-- Reading a line that has no fault. -/
theorem addLine (h : Reads earlier reading) (hadd : reading.addLine line = .ok after) :
  Reads (earlier ++ [line.content]) after
  := by
  rcases reading.addLine_cases line with ⟨hblank, heq⟩ | ⟨hcommand, heq⟩
    | ⟨hrule, rule, hparse, heq⟩ | ⟨-, flaw, -, heq⟩ <;> rw [heq] at hadd
  · cases hadd
    apply h.snoc_blank hblank
  · apply h.addCommand hcommand hadd
  · obtain ⟨hdeclares, hdependencies⟩ := declares_of_parse hrule hparse
    apply h.addRule hdeclares hdependencies hadd
  · cases hadd

/-- Reading a line that has a fault. -/
theorem addLine_error (h : Reads earlier reading) (hadd : reading.addLine line = .error e) :
  ∃ fault, Breaks earlier line.content fault ∧ e.line? = some line.number
    ∧ e.fault? = some fault
  := by
  rcases reading.addLine_cases line with ⟨-, heq⟩ | ⟨hcommand, heq⟩
    | ⟨hrule, rule, hparse, heq⟩ | ⟨hrule, flaw, hparse, heq⟩ <;> rw [heq] at hadd
  · cases hadd
  · apply h.addCommand_error hcommand hadd
  · obtain ⟨hdeclares, hdependencies⟩ := declares_of_parse hrule hparse
    apply h.addRule_error hdeclares hdependencies hadd
  · cases hadd
    exact ⟨_, breaks_of_parse hrule earlier hparse, rfl, rfl⟩

/-! ### All lines -/

variable {lines : List Line}

theorem addLine_snoc (before : List Line) (line : Line) (reading after : Reading)
    (h : Reads (earlier ++ before.map (·.content)) reading)
    (hadd : reading.addLine line = .ok after) :
  Reads (earlier ++ (before ++ [line]).map (·.content)) after
  := by
  rw [List.map_append, ← List.append_assoc]
  apply h.addLine hadd

theorem addLines (h : Reads earlier reading) (hadd : reading.addLines lines = .ok after) :
  Reads (earlier ++ lines.map (·.content)) after
  := by
  have hstart : Reads (earlier ++ ([] : List Line).map (·.content)) reading := by simpa using h
  apply Reading.addLines_kept (fun before => Reads (earlier ++ before.map (·.content)))
    addLine_snoc hstart hadd

/-- The error tells the fault of the first line that has one. -/
theorem addLines_error (h : Reads earlier reading)
    (hnumbers : lines.map (·.number) = List.range' (earlier.length + 1) lines.length)
    (hadd : reading.addLines lines = .error e) :
  ∃ number fault, FirstFault (earlier ++ lines.map (·.content)) number fault
    ∧ e.line? = some number ∧ e.fault? = some fault
  := by
  have hstart : Reads (earlier ++ ([] : List Line).map (·.content)) reading := by simpa using h
  obtain ⟨before, line, rest, last, rfl, hlast, hstop⟩ := Reading.addLines_stopped
    (fun before => Reads (earlier ++ before.map (·.content))) addLine_snoc hstart hadd
  obtain ⟨fault, hbreaks, hnumber, hfault⟩ := hlast.addLine_error hstop
  refine ⟨line.number, fault, ⟨_, line.content, rest.map (·.content), ?_, ?_, hlast.clean, hbreaks⟩,
    hnumber, hfault⟩
  · simp
  · have hplace : line.number = earlier.length + 1 + before.length := by
      simpa using congrArg (·[before.length]?) hnumbers
    rw [hplace, List.nil_append, List.length_append, List.length_map]
    omega

end Reads

end IncrementalBuild.BuildFile
