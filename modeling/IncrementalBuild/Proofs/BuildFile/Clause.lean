import IncrementalBuild.Proofs.BuildFile.Placement
import IncrementalBuild.Proofs.BuildFile.Reading

/-!
# What a line says

A `Clause` is what a line says, without the places where it says so: a command, a target with its
dependencies, or what is malformed.  A line says the same with blank characters at its end, and a
command with blank characters between the tab and the command.

Reading a line depends on what the line says alone, but for the number of the line and the stretches
that an error blames; and lines that say nothing can be left out.  So texts whose lines say the same
in the same order are read alike.
-/

namespace IncrementalBuild.BuildFile

open Text

/-- What a line says. -/
inductive Clause
  | command (text : List Char)
  | rule (name : String) (dependencies : List String)
  | malformed (kind : Malformation)
deriving DecidableEq

/-- What a rule that has been read says. -/
def Clause.ofRule : Except Flaw Rule → Clause
  | .ok stated => .rule stated.name.text (stated.dependencies.map Word.text)
  | .error flaw => .malformed flaw.kind

/-- What the content of a line says, if it says anything. -/
def Clause.ofContent? (content : List Char) : Option Clause :=
  match Statement.ofContent content with
  | .blank => none
  | .command text => some (.command text)
  | .rule => some (.ofRule (Rule.parse content))

theorem Clause.ofRule_ne_command (parsed : Except Flaw Rule) (text : List Char) :
  Clause.ofRule parsed ≠ .command text
  := by cases parsed <;> simp [ofRule]

variable {content blank head : List Char} {reading reading' : Reading} {line line' : Line}
  {lines lines' : List Line}

/-! ### Blanks around words and commands -/

theorem notMem_of_isBlank {c : Char} (hc : isBlank c = false)
    (hblank : ∀ d ∈ blank, isBlank d = true) :
  c ∉ blank
  := by
  intro hmem
  cases hc.symm.trans (hblank c hmem)

/-- A blank character parts the words before it from those behind it. -/
theorem wordsOf_append_cons {c : Char} (hc : isBlank c = true) (cs rest : List Char) :
  wordsOf (cs ++ c :: rest) = wordsOf cs ++ wordsOf rest
  := by
  rw [wordsOf, List.splitOnP_append_cons cs rest hc, List.filter_append, List.map_append, ← wordsOf,
    ← wordsOf]

theorem wordsOf_append_blank (hblank : ∀ c ∈ blank, isBlank c = true) :
  wordsOf (content ++ blank) = wordsOf content
  := by
  cases blank with
  | nil => rw [List.append_nil]
  | cons c blank =>
    obtain ⟨hc, hblank⟩ := List.forall_mem_cons.1 hblank
    rw [wordsOf_append_cons hc, wordsOf_eq_nil hblank, List.append_nil]

theorem trim_blank_append (hblank : ∀ c ∈ blank, isBlank c = true) :
  trim (blank ++ content) = trim content
  := by rw [trim, trimStart, List.dropWhile_append_of_pos hblank, ← trimStart, ← trim]

theorem trim_append_blank (hblank : ∀ c ∈ blank, isBlank c = true) :
  trim (content ++ blank) = trim content
  := by
  rw [trim, trim, trimStart, trimStart, List.dropWhile_append]
  split
  · next hempty =>
    rw [List.isEmpty_iff.1 hempty, List.dropWhile_eq_nil_iff.2 hblank]
  · rw [trimEnd_append_blank hblank]

/-! ### Blanks at the end of a line -/

theorem ofRule_parse_of_notMem (h : ':' ∉ content) :
  Clause.ofRule (Rule.parse content) = .malformed .missingColon
  := by
  have hdrop : content.dropWhile (· ≠ ':') = [] :=
    List.dropWhile_eq_nil_iff.2 (forall_ne_of_notMem h)
  rw [Rule.parse, hdrop]
  rfl

/-- What a rule with a colon says is told by the words before the colon and after it. -/
theorem ofRule_parse_append (h : ':' ∉ head) (tail : List Char) :
  Clause.ofRule (Rule.parse (head ++ ':' :: tail))
    = if tail.contains ':' then
        .malformed .extraColon
      else
        match wordsOf head with
        | [] => .malformed .emptyName
        | [name] => .rule name (wordsOf tail)
        | _ :: _ :: _ => .malformed (.invalidName (String.ofList (trim head)))
  := by
  rw [Rule.parse, takeWhile_append_of_notMem h, dropWhile_append_of_notMem h,
    ← map_text_wordsFrom 0 head, ← words]
  dsimp only
  split
  · rfl
  · cases words head with
    | nil => rfl
    | cons first rest =>
      cases rest with
      | nil => rw [← map_text_wordsFrom (byteLength head + 1) tail]; rfl
      | cons second rest => rfl

theorem ofRule_parse_append_blank (hblank : ∀ c ∈ blank, isBlank c = true) :
  Clause.ofRule (Rule.parse (content ++ blank)) = Clause.ofRule (Rule.parse content)
  := by
  have hcolon : ':' ∉ blank := notMem_of_isBlank (by decide) hblank
  by_cases hmem : ':' ∈ content
  · obtain ⟨head, tail, rfl, hhead⟩ := List.eq_append_cons_of_mem hmem
    have hcontains : (tail ++ blank).contains ':' = tail.contains ':' := by simp [hcolon]
    rw [List.append_assoc, List.cons_append, ofRule_parse_append hhead, ofRule_parse_append hhead,
      wordsOf_append_blank hblank, hcontains]
  · rw [ofRule_parse_of_notMem hmem, ofRule_parse_of_notMem]
    rw [List.mem_append, not_or]
    exact ⟨hmem, hcolon⟩

theorem ofContent?_of_isBlankLine (h : isBlankLine content = true) :
  Clause.ofContent? content = none
  := by rw [Clause.ofContent?, ofContent_of_isBlankLine h]

theorem ofContent?_of_isCommandLine (h : isCommandLine content = true) :
  Clause.ofContent? content = some (.command (trim content.tail))
  := by rw [Clause.ofContent?, ofContent_of_isCommandLine h]

theorem ofContent?_of_isRuleLine (h : isRuleLine content = true) :
  Clause.ofContent? content = some (.ofRule (Rule.parse content))
  := by rw [Clause.ofContent?, ofContent_of_isRuleLine h]

/-- A line says the same with blank characters at its end. -/
theorem ofContent?_append_blank (hblank : ∀ c ∈ blank, isBlank c = true) :
  Clause.ofContent? (content ++ blank) = Clause.ofContent? content
  := by
  have hall : isBlankLine (content ++ blank) = isBlankLine content := by
    rw [isBlankLine, List.all_append, List.all_eq_true.2 hblank, Bool.and_true, ← isBlankLine]
  by_cases hline : isBlankLine content = true
  · rw [ofContent?_of_isBlankLine hline, ofContent?_of_isBlankLine (hall.trans hline)]
  · obtain ⟨c, cs, rfl⟩ : ∃ c cs, content = c :: cs := by
      apply List.exists_cons_of_ne_nil
      rintro rfl
      exact hline rfl
    rcases isRuleLine_or_isCommandLine (by simpa using hline) with hrule | hcommand
    · have hrule' : isRuleLine (c :: cs ++ blank) = true := by
        rw [isRuleLine_iff] at hrule ⊢
        rwa [hall]
      rw [ofContent?_of_isRuleLine hrule, ofContent?_of_isRuleLine hrule',
        ofRule_parse_append_blank hblank]
    · have hcommand' : isCommandLine (c :: cs ++ blank) = true := by
        rw [isCommandLine_iff] at hcommand ⊢
        rwa [hall]
      rw [ofContent?_of_isCommandLine hcommand, ofContent?_of_isCommandLine hcommand',
        List.cons_append, List.tail_cons, List.tail_cons, trim_append_blank hblank]

/-- A carriage return that ends a line says nothing. -/
theorem ofContent?_dropReturn (content : List Char) :
  Clause.ofContent? (dropReturn content) = Clause.ofContent? content
  := by
  rw [dropReturn]
  split
  · next hlast =>
    obtain ⟨body, rfl⟩ := List.getLast?_eq_some_iff.1 hlast
    rw [List.dropLast_concat]
    refine (ofContent?_append_blank fun c hc => ?_).symm
    rw [List.mem_singleton.1 hc]
    decide
  · rfl

/-- A command says the same with blank characters before it. -/
theorem ofContent?_tab_blank_append (hblank : ∀ c ∈ blank, isBlank c = true) (rest : List Char) :
  Clause.ofContent? ('\t' :: (blank ++ rest)) = Clause.ofContent? ('\t' :: rest)
  := by
  have hall : isBlankLine ('\t' :: (blank ++ rest)) = isBlankLine ('\t' :: rest) := by
    rw [isBlankLine, isBlankLine, List.all_cons, List.all_cons, List.all_append,
      List.all_eq_true.2 hblank, Bool.true_and]
  by_cases hline : isBlankLine ('\t' :: rest) = true
  · rw [ofContent?_of_isBlankLine hline, ofContent?_of_isBlankLine (hall.trans hline)]
  · have hline : isBlankLine ('\t' :: rest) = false := by simpa using hline
    rw [ofContent?_of_isCommandLine (isCommandLine_iff.2 ⟨hline, rfl⟩),
      ofContent?_of_isCommandLine (isCommandLine_iff.2 ⟨hall.trans hline, rfl⟩), List.tail_cons,
      List.tail_cons, trim_blank_append hblank]

/-! ### Reading what is said -/

/-- Two outcomes are alike: two results that are related, or two errors which say that the same is
wrong, about lines whose numbers are related. -/
inductive Alike {α β : Type} (ρ : Nat → Nat → Prop) (R : α → β → Prop) :
    Except Error α → Except Error β → Prop
  | ok {a : α} {b : β} (h : R a b) : Alike ρ R (.ok a) (.ok b)
  | error {e e' : Error} (hfault : e.fault? = e'.fault?) (hline : Option.Rel ρ e.line? e'.line?) :
    Alike ρ R (.error e) (.error e')

/-- What has been read is the same, but for the places of the declarations. -/
structure Reading.Alike (reading reading' : Reading) : Prop where
  graph : reading.graph = reading'.graph
  current : reading.current = reading'.current

variable {ρ : Nat → Nat → Prop}

theorem addCommand_alike (h : reading.Alike reading') (hline : ρ line.number line'.number)
    (text : List Char) :
  Alike ρ Reading.Alike (reading.addCommand line text) (reading'.addCommand line' text)
  := by
  obtain ⟨graph, current, declaredAt⟩ := reading
  obtain ⟨graph', current', declaredAt'⟩ := reading'
  obtain ⟨rfl, rfl⟩ := h
  cases current with
  | none => exact .error rfl (.some hline)
  | some target => exact .ok ⟨rfl, rfl⟩

theorem addDependencies_alike {words words' : List Word} (hline : ρ line.number line'.number)
    (hwords : words.map Word.text = words'.map Word.text) (target : Nat) (g : Graph) :
  Alike ρ Eq (Reading.addDependencies line target g words)
    (Reading.addDependencies line' target g words')
  := by
  induction words generalizing g words' with
  | nil =>
    rw [List.map_nil, eq_comm, List.map_eq_nil_iff] at hwords
    rw [hwords]
    exact .ok rfl
  | cons word words ih =>
    rw [List.map_cons, eq_comm, List.map_eq_cons_iff] at hwords
    obtain ⟨word', words', rfl, hword, hwords⟩ := hwords
    rw [Reading.addDependencies, Reading.addDependencies, hword]
    split
    · next hdepend => exact ih hwords.symm _
    · exact .error rfl (.some hline)

theorem addRule_alike {rule rule' : Rule} (h : reading.Alike reading')
    (hline : ρ line.number line'.number) (hname : rule.name.text = rule'.name.text)
    (hdependencies : rule.dependencies.map Word.text = rule'.dependencies.map Word.text) :
  Alike ρ Reading.Alike (reading.addRule line rule) (reading'.addRule line' rule')
  := by
  obtain ⟨graph, current, declaredAt⟩ := reading
  obtain ⟨graph', current', declaredAt'⟩ := reading'
  obtain ⟨rfl, rfl⟩ := h
  unfold Reading.addRule
  dsimp only
  rw [hname]
  split
  · exact .error rfl (.some hline)
  · next g id hdeclare =>
    -- the targets are declared in different places, and no more
    have hadd := addDependencies_alike hline hdependencies id g
    generalize Reading.addDependencies line id g rule.dependencies = outcome at hadd
    generalize Reading.addDependencies line' id g rule'.dependencies = outcome' at hadd
    cases hadd with
    | ok heq =>
      subst heq
      exact .ok ⟨rfl, rfl⟩
    | error hfault hline => exact .error hfault hline

/-- Lines that say the same are read alike. -/
theorem addLine_alike (h : reading.Alike reading') (hline : ρ line.number line'.number)
    (hclause : Clause.ofContent? line.content = Clause.ofContent? line'.content) :
  Alike ρ Reading.Alike (reading.addLine line) (reading'.addLine line')
  := by
  unfold Clause.ofContent? at hclause
  unfold Reading.addLine
  generalize Statement.ofContent line.content = statement at hclause
  generalize Statement.ofContent line'.content = statement' at hclause
  -- the statements are of one kind, for what the lines say is the same
  cases statement with
  | blank =>
    cases statement' with
    | blank => exact .ok h
    | command | rule => cases hclause
  | command text =>
    cases statement' with
    | command text' =>
      cases hclause
      exact addCommand_alike h hline text
    | blank => cases hclause
    | rule => cases Clause.ofRule_ne_command _ text (Option.some.inj hclause).symm
  | rule =>
    cases statement' with
    | rule =>
      generalize Rule.parse line.content = parsed at hclause
      generalize Rule.parse line'.content = parsed' at hclause
      cases parsed with
      | ok rule =>
        cases parsed' with
        | ok rule' =>
          obtain ⟨hname, hdependencies⟩ : rule.name.text = rule'.name.text
              ∧ rule.dependencies.map Word.text = rule'.dependencies.map Word.text := by
            simpa [Clause.ofRule] using hclause
          exact addRule_alike h hline hname hdependencies
        | error flaw' => cases hclause
      | error flaw =>
        cases parsed' with
        | ok rule' => cases hclause
        | error flaw' =>
          have hkind : flaw.kind = flaw'.kind := by simpa [Clause.ofRule] using hclause
          exact .error (congrArg (fun kind => some (Fault.malformed kind)) hkind) (.some hline)
    | blank => cases hclause
    | command text' => cases Clause.ofRule_ne_command _ text' (Option.some.inj hclause)

/-! ### Reading what lines say -/

/-- A line that says nothing can be left out. -/
theorem addLine_of_ofContent?_eq_none (h : Clause.ofContent? line.content = none) :
  reading.addLine line = .ok reading
  := by
  unfold Clause.ofContent? at h
  unfold Reading.addLine
  generalize Statement.ofContent line.content = statement at h
  cases statement with
  | blank => rfl
  | command | rule => cases h

theorem addLines_filter (reading : Reading) (lines : List Line) :
  reading.addLines (lines.filter fun line => (Clause.ofContent? line.content).isSome)
    = reading.addLines lines
  := by
  induction lines generalizing reading with
  | nil => rfl
  | cons line lines ih =>
    cases hclause : Clause.ofContent? line.content with
    | none =>
      rw [List.filter_cons_of_neg (by simp [hclause]), Reading.addLines,
        addLine_of_ofContent?_eq_none hclause]
      exact ih reading
    | some clause =>
      rw [List.filter_cons_of_pos (by simp [hclause]), Reading.addLines, Reading.addLines]
      cases reading.addLine line with
      | ok next => exact ih next
      | error e => rfl

/-- Lines that say the same, one after the other, are read alike. -/
theorem addLines_alike (h : reading.Alike reading')
    (hlines : List.Forall₂ (fun line line' =>
      Clause.ofContent? line.content = Clause.ofContent? line'.content
        ∧ ρ line.number line'.number) lines lines') :
  Alike ρ Reading.Alike (reading.addLines lines) (reading'.addLines lines')
  := by
  induction hlines generalizing reading reading' with
  | nil => exact .ok h
  | cons hhead _ ih =>
    rw [Reading.addLines, Reading.addLines]
    have hadd := addLine_alike h hhead.2 hhead.1
    generalize reading.addLine _ = outcome at hadd
    generalize reading'.addLine _ = outcome' at hadd
    cases hadd with
    | ok h => exact ih h
    | error hfault hline => exact .error hfault hline

/-- What the lines of a text say. -/
def clausesOf (cs : List Char) : List (Option Clause) :=
  (cs.splitOn '\n').map Clause.ofContent?

/-- The lines that say anything are among those that are read, with their numbers. -/
theorem filter_zipIdx_clausesOf (cs : List Char) :
  ((clausesOf cs).zipIdx 1).filter (·.1.isSome)
    = ((Text.lines cs).filter fun line => (Clause.ofContent? line.content).isSome).map
        fun line => (Clause.ofContent? line.content, line.number)
  := by
  obtain ⟨last, hlast, hlines⟩ := splitOn_eq_append 1 0 cs
  have hdrop : Clause.ofContent? ∘ dropReturn = Clause.ofContent? := funext ofContent?_dropReturn
  have hclauses : clausesOf cs
      = (linesFrom 1 0 cs).map (fun line => Clause.ofContent? line.content)
        ++ last.map Clause.ofContent? := by
    have h := congrArg (List.map Clause.ofContent?) hlines
    rwa [List.map_map, hdrop, List.map_append, List.map_map] at h
  have hnumbers : ((linesFrom 1 0 cs).map fun line => Clause.ofContent? line.content).zipIdx 1
      = (linesFrom 1 0 cs).map fun line => (Clause.ofContent? line.content, line.number) := by
    rw [List.zipIdx_eq_zip_range', List.length_map, ← map_number_linesFrom 1 0 cs]
    exact List.zip_map'
  -- the empty line behind the last line feed says nothing
  have hnone : ((last.map Clause.ofContent?).zipIdx (1 + (linesFrom 1 0 cs).length)).filter
      (·.1.isSome) = [] := by
    rcases hlast with rfl | rfl <;> rfl
  rw [hclauses, List.zipIdx_append, List.length_map, List.filter_append, hnone, List.append_nil,
    hnumbers, List.filter_map]
  rfl

/-- The lines of two texts say the same, one after the other, and their numbers are related; lines
that say nothing do not count. -/
def SaysSame (ρ : Nat → Nat → Prop) (text text' : String) : Prop :=
  List.Forall₂ (fun said said' => said.1 = said'.1 ∧ ρ said.2 said'.2)
    (((clausesOf text.toList).zipIdx 1).filter (·.1.isSome))
    (((clausesOf text'.toList).zipIdx 1).filter (·.1.isSome))

/-- Texts whose lines say the same are read alike. -/
theorem SaysSame.parse_alike {text text' : String} (h : SaysSame ρ text text') :
  Alike ρ Eq (parse text) (parse text')
  := by
  rw [SaysSame, filter_zipIdx_clausesOf, filter_zipIdx_clausesOf, List.forall₂_map_left_iff,
    List.forall₂_map_right_iff] at h
  have hadd : Alike ρ Reading.Alike (Reading.start.addLines (Text.lines text.toList))
      (Reading.start.addLines (Text.lines text'.toList)) := by
    rw [← addLines_filter, ← addLines_filter .start (Text.lines text'.toList)]
    exact addLines_alike ⟨rfl, rfl⟩ h
  unfold parse
  generalize Reading.start.addLines (Text.lines text.toList) = outcome at hadd
  generalize Reading.start.addLines (Text.lines text'.toList) = outcome' at hadd
  cases hadd with
  | ok h =>
    dsimp only
    rw [h.graph]
    split
    · exact .error rfl .none
    · exact .ok rfl
  | error hfault hline => exact .error hfault hline

end IncrementalBuild.BuildFile
