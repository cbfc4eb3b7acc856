import IncrementalBuild.Proofs.BuildFile.Acceptance
import IncrementalBuild.Proofs.BuildFile.Placement

/-!
# What the labels of an error show

The labels of an error about a text are on spans of the text.  `Shows` says what a span shows: a
stretch of a line, with the number of the line.  An error is `Faithful` to a text with the spans
that it labels if there is a span for all that the error is about, and no other one: for a whole
line, a colon, or a name.

The error about a target that is declared twice has a second label, which shows the name where
it was declared first.  The reader looks it up in a table of its own.  `Traced` says that the
table is right: for each name that is declared it has the place of the name on the line that
declares it.  So the reader never falls back on the first label.
-/

namespace IncrementalBuild.BuildFile

open Text

/-! ### What a span shows -/

/-- A line of a text, with its number, between what is before it and what is after it. -/
structure LineAt (text : String) (number : Nat) (before content after : List Char) : Prop where
  split : text.toList = before ++ content ++ after
  line : (contents text)[number - 1]? = some content
  number : number = before.count '\n' + 1
  begins : ∀ c ∈ before.getLast?, c = '\n'
  feed : '\n' ∉ content

/-- A span shows a stretch of the line with a number. -/
structure Shows (text : String) (number : Nat) (span : Span) (left under right : List Char) :
    Prop where
  nonempty : under ≠ []
  place : ∃ before after, LineAt text number before (left ++ under ++ right) after
    ∧ Stretch text.toList span (before ++ left) under (right ++ after)

/-- A name stands at the beginning of a line that declares it. -/
structure Names (content left : List Char) (name : String) (right : List Char) : Prop where
  split : content = left ++ name.toList ++ right
  nonempty : name.toList ≠ []
  declares : Declares content name
  first : wordsOf left = []

/-- The spans that an error labels, one by one, show what it is about.  Only an error about a target
that is declared twice labels a second span, and only one about a text without a target none. -/
inductive Faithful (text : String) : Error → List Span → Prop
  | noTarget : Faithful text .noTarget []
  | malformed {kind : Malformation} {number : Nat} {span : Span} {left under right : List Char}
      (hshows : Shows text number span left under right) (hblames : Blames kind left under right) :
    Faithful text (.malformed kind number span) [span]
  | duplicateTarget {name : String} {number number' : Nat} {span first : Span}
      {content left right content' left' right' : List Char}
      (hshows : Shows text number span left name.toList right)
      (hnames : Names content left name right)
      (hfirst : Shows text number' first left' name.toList right')
      (hfirstNames : Names content' left' name right')
      (hnew : ∀ other ∈ (contents text).take (number' - 1), ¬ Declares other name)
      (hbefore : first.offset + first.length ≤ span.offset) :
    Faithful text (.duplicateTarget name number span first) [span, first]
  | duplicateDependency {target dependency : String} {number : Nat} {span : Span}
      {content left right : List Char}
      (hshows : Shows text number span left dependency.toList right)
      (hcontent : content = left ++ dependency.toList ++ right)
      (hdeclares : Declares content target)
      (hrepeats : RepeatsFirst (dependenciesOf content) (dependenciesOf left) dependency
        (wordsOf right)) :
    Faithful text (.duplicateDependency target dependency number span) [span]

section

variable {text : String} {before after : List Line} {line : Line}
  (hlines : lines text.toList = before ++ line :: after)

include hlines

theorem contents_eq_append :
  ∃ rest, contents text = before.map (·.content) ++ line.content :: rest
  := by
  obtain ⟨last, -, hcontents⟩ := contents_eq_lines text
  rw [hcontents, hlines]
  exact ⟨after.map (·.content) ++ last, by simp⟩

theorem lineAt_of_lines :
  LineAt text line.number (before.flatMap lineChars) line.content
    (line.ending.chars ++ after.flatMap lineChars)
  := by
  have hnumber : line.number = 1 + before.length := number_of_linesFrom hlines
  constructor
  case split =>
    have hall := flatMap_lineChars_linesFrom 1 0 text.toList
    rw [← hall, ← lines, hlines, List.flatMap_append, List.flatMap_cons, lineChars]
    simp
  case line =>
    obtain ⟨rest, hcontents⟩ := contents_eq_append hlines
    rw [hcontents, hnumber]
    simp
  case number => rw [hnumber, count_flatMap_lineChars hlines, Nat.add_comm]
  case begins => exact getLast?_flatMap_lineChars hlines
  case feed =>
    exact notMem_content_of_linesFrom (hlines ▸ List.mem_append_right _ List.mem_cons_self)

/-- A stretch of a line is shown by its span in the text. -/
theorem shows_of_stretch {span : Span} {left under right : List Char}
    (h : Stretch line.content span left under right) (hne : under ≠ []) :
  Shows text line.number (spanAt line span.offset span.length) left under right
  := by
  have hline := lineAt_of_lines hlines
  have hstretch :=
    h.append (before.flatMap lineChars) (line.ending.chars ++ after.flatMap lineChars)
  have hoffset : line.offset = 0 + byteLength (before.flatMap lineChars) :=
    (offset_of_linesFrom hlines).1
  rw [← hline.split, ← Nat.zero_add (byteLength _), ← hoffset] at hstretch
  rw [h.split] at hline
  exact ⟨hne, _, _, hline, hstretch⟩

end

/-! ### Where names are declared -/

/-- A span is that of a name on a line that declares it. -/
def DeclaredAt (earlier : List Line) (name : String) (span : Span) : Prop :=
  ∃ before line after left right, earlier = before ++ line :: after
    ∧ Names line.content left name right
    ∧ span = spanAt line (byteLength left) (byteLength name.toList)

/-- What has been read has the place of each name that is declared. -/
def Traced (earlier : List Line) (reading : Reading) : Prop :=
  ∀ name, reading.graph.IsDeclared name → ∃ id span, reading.graph.HasName id name
    ∧ reading.declaredAt.lookup id = some span ∧ DeclaredAt earlier name span

theorem DeclaredAt.snoc {earlier : List Line} {name : String} {span : Span}
    (h : DeclaredAt earlier name span) (line : Line) :
  DeclaredAt (earlier ++ [line]) name span
  := by
  obtain ⟨before, first, after, left, right, rfl, hnames, hspan⟩ := h
  exact ⟨before, first, after ++ [line], left, right, by simp, hnames, hspan⟩

theorem hasName_of_addDependencies {line : Line} {words : List Word} {g after : Graph}
    {target node : Nat} {name other : String} (hname : g.HasName target name)
    (hadd : Reading.addDependencies line target g words = .ok after)
    (hnode : g.HasName node other) :
  after.HasName node other
  := by
  induction words generalizing g with
  | nil =>
    cases hadd
    exact hnode
  | cons word words ih =>
    rw [Reading.addDependencies] at hadd
    split at hadd
    · next hdepend =>
      obtain ⟨found, hfound, -⟩ := id hname
      have hdepending := Graph.depending_depend word.text hfound
      rw [hdepend] at hdepending
      apply ih (hdepending.hasName_mono hname) hadd (hdepending.hasName_mono hnode)
    · cases hadd

theorem toList_text (word : Word) :
  word.text.toList = word.chars
  := String.toList_ofList

theorem names_of_parse {content : List Char} {rule : Rule} (hrule : isRuleLine content = true)
    (h : Rule.parse content = .ok rule) :
  ∃ left right, Names content left rule.name.text right
    ∧ Stretch content ⟨rule.name.offset, rule.name.length⟩ left rule.name.text.toList right
  := by
  obtain ⟨hdeclares, -⟩ := declares_of_parse hrule h
  obtain ⟨left, right, hstretch, hne, hfirst⟩ := stretch_name_of_parse h
  rw [← toList_text] at hstretch hne
  exact ⟨left, right, ⟨hstretch.split, hne, hdeclares, hfirst⟩, hstretch⟩

theorem traced_start :
  Traced [] .start
  := by
  intro name hdeclared
  cases Graph.not_isDeclared_empty hdeclared

namespace Traced

variable {earlier : List Line} {reading after : Reading} {line : Line}

/-- A line that declares nothing. -/
theorem snoc (h : Traced earlier reading)
    (hdeclared : ∀ name, after.graph.IsDeclared name → reading.graph.IsDeclared name)
    (hname : ∀ id name, reading.graph.HasName id name → after.graph.HasName id name)
    (htable : after.declaredAt = reading.declaredAt) :
  Traced (earlier ++ [line]) after
  := by
  intro name hafter
  obtain ⟨id, span, hid, hspan, hat⟩ := h name (hdeclared name hafter)
  exact ⟨id, span, hname id name hid, htable ▸ hspan, hat.snoc line⟩

theorem addRule {rule : Rule} (h : Traced earlier reading)
    (hreads : Reads (earlier.map (·.content)) reading) (hrule : isRuleLine line.content = true)
    (hparse : Rule.parse line.content = .ok rule) (hadd : reading.addRule line rule = .ok after) :
  Traced (earlier ++ [line]) after
  := by
  have hdeclaring := Graph.declaring_declare reading.graph rule.name.text
  unfold Reading.addRule at hadd
  dsimp only at hadd
  split at hadd
  · cases hadd
  · next g id hdeclare =>
    split at hadd
    · next graph hgraph =>
      cases hadd
      have hlisting := hreads.listing_of_declare hdeclare
      rw [hdeclare] at hdeclaring
      have hid : g.HasName id rule.name.text := hdeclaring.hasName
      have hmono : ∀ other name, g.HasName other name → graph.HasName other name := fun _ _ =>
        hasName_of_addDependencies hid hgraph
      intro name hname
      rw [(hlisting.of_addDependencies hgraph).isDeclared, hdeclaring.isDeclared_iff] at hname
      rcases hname with hold | rfl
      · obtain ⟨other, span, hother, hspan, hat⟩ := h name hold
        refine ⟨other, span, hmono _ _ (hdeclaring.hasName_mono hother), ?_, hat.snoc line⟩
        -- the name is not the one that is declared now
        have hne : other ≠ id := by
          rintro rfl
          apply hdeclaring.not_isDeclared
          rwa [← (hdeclaring.hasName_mono hother).name_eq hid]
        rw [List.lookup_cons, beq_false_of_ne hne]
        exact hspan
      · obtain ⟨left, right, hnames, hstretch⟩ := names_of_parse hrule hparse
        refine ⟨id, _, hmono _ _ hid, List.lookup_cons_self, earlier, line, [], left, right, rfl,
          hnames, ?_⟩
        rw [← hstretch.offset, ← hstretch.length]
    · cases hadd

/-- Reading a line. -/
theorem addLine (h : Traced earlier reading) (hreads : Reads (earlier.map (·.content)) reading)
    (hadd : reading.addLine line = .ok after) :
  Traced (earlier ++ [line]) after
  := by
  rcases reading.addLine_cases line with ⟨hblank, heq⟩ | ⟨hcommand, heq⟩
    | ⟨hrule, rule, hparse, heq⟩ | ⟨-, flaw, -, heq⟩ <;> rw [heq] at hadd
  · cases hadd
    apply h.snoc (fun _ h => h) (fun _ _ h => h) rfl
  · unfold Reading.addCommand at hadd
    split at hadd
    · cases hadd
    · next target hcurrent =>
      cases hadd
      apply h.snoc
      · intro name
        apply (Graph.isDeclared_addCommand _).1
      · intro id name
        apply Graph.hasName_modify (Graph.nodes_addCommand _ _ _) (fun _ => rfl)
      · rfl
  · apply h.addRule hreads hrule hparse hadd
  · cases hadd

theorem addLine_snoc (earlier : List Line) (line : Line) (reading after : Reading)
    (h : Reads (earlier.map (·.content)) reading ∧ Traced earlier reading)
    (hadd : reading.addLine line = .ok after) :
  Reads ((earlier ++ [line]).map (·.content)) after ∧ Traced (earlier ++ [line]) after
  := by
  rw [List.map_append]
  exact ⟨h.1.addLine hadd, h.2.addLine h.1 hadd⟩

end Traced

/-! ### The error about a line -/

section

variable {text : String} {before after : List Line} {line : Line} {reading : Reading} {e : Error}
  (hlines : lines text.toList = before ++ line :: after)

include hlines

/-- A name stands on the first line that declares it, before any other line. -/
theorem shows_of_declaredAt {name : String} {first : Span}
    (hclean : Clean (before.map (·.content))) (hfirst : DeclaredAt before name first) :
  ∃ number content left right, Shows text number first left name.toList right
    ∧ Names content left name right
    ∧ (∀ other ∈ (contents text).take (number - 1), ¬ Declares other name)
    ∧ first.offset + first.length ≤ line.offset
  := by
  obtain ⟨earlier, declaring, later, left, right, rfl, hnames, rfl⟩ := hfirst
  have hlines' : lines text.toList = earlier ++ declaring :: (later ++ line :: after) := by
    rw [hlines, List.append_assoc, List.cons_append]
  have hstretch : Stretch declaring.content ⟨byteLength left, byteLength name.toList⟩ left
      name.toList right := ⟨hnames.split, rfl, rfl⟩
  refine ⟨declaring.number, declaring.content, left, right,
    shows_of_stretch hlines' hstretch hnames.nonempty, hnames, ?_, ?_⟩
  · intro other hother hdeclares
    obtain ⟨rest, hcontents⟩ := contents_eq_append hlines'
    have hnumber : declaring.number - 1 = (earlier.map (·.content)).length := by
      rw [number_of_linesFrom hlines', Nat.add_sub_cancel_left, List.length_map]
    rw [hcontents, hnumber, List.take_left] at hother
    rw [List.map_append, List.map_cons] at hclean
    apply hclean _ _ _ rfl _ (.duplicateTarget hnames.declares ⟨other, hother, hdeclares⟩)
  · have hoffset := (offset_of_linesFrom hlines).1
    have hoffset' := (offset_of_linesFrom hlines').1
    have hlength := congrArg byteLength hnames.split
    rw [byteLength_append, byteLength_append] at hlength
    rw [List.flatMap_append, List.flatMap_cons, lineChars, byteLength_append, byteLength_append,
      byteLength_append] at hoffset
    dsimp only [spanAt]
    omega

theorem faithful_of_addRule_error {rule : Rule} (hreads : Reads (before.map (·.content)) reading)
    (htraced : Traced before reading) (hrule : isRuleLine line.content = true)
    (hparse : Rule.parse line.content = .ok rule) (hadd : reading.addRule line rule = .error e) :
  Faithful text e (e.labels.map (·.span))
  := by
  have hdeclaring := Graph.declaring_declare reading.graph rule.name.text
  obtain ⟨hdeclares, hdependencies⟩ := declares_of_parse hrule hparse
  unfold Reading.addRule at hadd
  dsimp only at hadd
  split at hadd
  · next g refused hdeclare =>
    cases hadd
    rw [hdeclare] at hdeclaring
    cases hdeclaring with
    | refused hdeclared =>
      obtain ⟨id, first, hid, hlookup, hat⟩ := htraced _ hdeclared
      obtain ⟨number, content, left', right', hfirst, hfirstNames, hnew, hbefore⟩ :=
        shows_of_declaredAt hlines hreads.clean hat
      obtain ⟨left, right, hnames, hstretch⟩ := names_of_parse hrule hparse
      have hshows := shows_of_stretch hlines hstretch hnames.nonempty
      -- the table has the name, so its label is not that of the line itself
      simp only [hid.find?_eq, Option.bind_some, hlookup, Option.getD_some]
      exact .duplicateTarget hshows hnames hfirst hfirstNames hnew (Nat.le_add_right_of_le hbefore)
  · next g id hdeclare =>
    split at hadd
    · cases hadd
    · next hgraph =>
      cases hadd
      obtain ⟨earlier, word, later, hsplit, rfl, hrepeats⟩ :=
        (hreads.listing_of_declare hdeclare).of_addDependencies_error hgraph
      obtain ⟨left, right, hstretch, hne, hleft, hright⟩ :=
        stretch_dependency_of_parse hparse hsplit
      rw [← toList_text] at hstretch hne
      rw [List.nil_append, List.nil_append, hdependencies, ← hleft, ← hright] at hrepeats
      exact .duplicateDependency (shows_of_stretch hlines hstretch hne) hstretch.split hdeclares
        hrepeats

theorem faithful_of_addLine_error (hreads : Reads (before.map (·.content)) reading)
    (htraced : Traced before reading) (hadd : reading.addLine line = .error e) :
  Faithful text e (e.labels.map (·.span))
  := by
  rcases reading.addLine_cases line with ⟨-, heq⟩ | ⟨hcommand, heq⟩
    | ⟨hrule, rule, hparse, heq⟩ | ⟨hrule, flaw, hparse, heq⟩ <;> rw [heq] at hadd
  · cases hadd
  · unfold Reading.addCommand at hadd
    split at hadd
    · cases hadd
      have hstretch : Stretch line.content ⟨0, byteLength line.content⟩ [] line.content [] :=
        ⟨by simp, rfl, rfl⟩
      have hne : line.content ≠ [] := by
        intro hnil
        rw [hnil] at hcommand
        cases hcommand
      exact .malformed (shows_of_stretch hlines hstretch hne) (.commandBeforeTarget line.content)
    · cases hadd
  · apply faithful_of_addRule_error hlines hreads htraced hrule hparse hadd
  · cases hadd
    obtain ⟨left, under, right, hstretch, hne, hblames⟩ := blames_of_parse hrule hparse
    exact .malformed (shows_of_stretch hlines hstretch hne) hblames

end

/-! ### All labels -/

section

variable {text : String} {number : Nat} {span : Span} {left under right : List Char} {e : Error}

/-- A span that shows a stretch of a line is a range of the text, on one line. -/
theorem Shows.isRange (h : Shows text number span left under right) :
  IsRange text span ∧ '\n' ∉ (textUnder text span).toList
    ∧ number = (textBefore text span).toList.count '\n' + 1
  := by
  obtain ⟨before, after, hline, hstretch⟩ := h.place
  have hfeed := hline.feed
  rw [List.mem_append, List.mem_append, not_or, not_or] at hfeed
  obtain ⟨⟨hleft, hunder⟩, -⟩ := hfeed
  refine ⟨hstretch.isRange h.nonempty, ?_, ?_⟩
  · rwa [hstretch.textUnder_eq, String.toList_ofList]
  · rw [hstretch.textBefore_eq, String.toList_ofList, List.count_append,
      List.count_eq_zero.2 hleft, hline.number, Nat.add_zero]

theorem Faithful.isRange {spans : List Span} (h : Faithful text e spans) :
  (∀ span ∈ spans, IsRange text span ∧ '\n' ∉ (textUnder text span).toList)
    ∧ ∀ span ∈ spans.head?, e.line? = some ((textBefore text span).toList.count '\n' + 1)
  := by
  cases h with
  | noTarget => simp
  | malformed hshows | duplicateDependency hshows =>
    obtain ⟨hrange, hfeed, hnumber⟩ := hshows.isRange
    simp [Error.line?, hrange, hfeed, ← hnumber]
  | duplicateTarget hshows hnames hfirst =>
    obtain ⟨hrange, hfeed, hnumber⟩ := hshows.isRange
    obtain ⟨hrange', hfeed', -⟩ := hfirst.isRange
    simp [Error.line?, hrange, hfeed, hrange', hfeed', ← hnumber]

end

/-- The labels of the error about a text are faithful: they are on what the error is about, and on
nothing else.  Their spans are ranges of the text that begin and end between characters and stay on
one line, and the number of line feeds before the first of them is told by the number of the
line. -/
theorem faithful_of_parse {text : String} {e : Error} (h : parse text = .error e) :
  let spans := e.labels.map (·.span)
  Faithful text e spans
    ∧ (∀ span ∈ spans, IsRange text span ∧ '\n' ∉ (textUnder text span).toList)
    ∧ ∀ span ∈ spans.head?, e.line? = some ((textBefore text span).toList.count '\n' + 1)
  := by
  intro spans
  have hfaithful : Faithful text e spans := by
    unfold parse at h
    split at h
    · next hadd =>
      cases h
      have hstart : Reads (([] : List Line).map (·.content)) .start ∧ Traced [] .start :=
        ⟨reads_start, traced_start⟩
      obtain ⟨before, line, after, reading, hlines, ⟨hreads, htraced⟩, hstop⟩ :=
        Reading.addLines_stopped
          (fun before reading => Reads (before.map (·.content)) reading ∧ Traced before reading)
          Traced.addLine_snoc hstart hadd
      apply faithful_of_addLine_error hlines hreads htraced hstop
    · split at h
      · cases h
        exact .noTarget
      · cases h
  exact ⟨hfaithful, hfaithful.isRange⟩

/-- A text that declares a target twice, with characters of two bytes and endings of two. -/
def repetitive : String :=
  "é: x\r\n\tcc\r\n é: y\n"

theorem firstFault_repetitive :
  FirstFault (contents repetitive) 3 (.duplicateTarget "é")
  := by
  have hfirst : Declares "é: x".toList "é" := ⟨by decide, by decide, by decide⟩
  have hclean : Clean ["é: x".toList, "\tcc".toList] := by
    refine clean_snoc.2 ⟨clean_snoc.2 ⟨clean_nil, fun fault => ?_⟩, fun fault => ?_⟩
    · apply hfirst.not_breaks (by simp) (by decide)
    · apply not_breaks_of_isCommandLine <;> decide
  refine ⟨["é: x".toList, "\tcc".toList], " é: y".toList, [[]], by decide, rfl, hclean, ?_⟩
  exact .duplicateTarget ⟨by decide, by decide, by decide⟩ ⟨_, List.mem_cons_self, hfirst⟩

/-- The name of the target stands at two places. -/
theorem Shows.span_repetitive {number : Nat} {span : Span} {left right : List Char}
    (h : Shows repetitive number span left "é".toList right) :
  span = ⟨0, 2⟩ ∨ span = ⟨13, 2⟩
  := by
  have hplaces : ∀ n < repetitive.toList.length, repetitive.toList[n]? = some 'é' →
      byteLength (repetitive.toList.take n) = 0 ∨ byteLength (repetitive.toList.take n) = 13 := by
    decide
  obtain ⟨before, after, -, hsplit, hoffset, hlength⟩ := h.place
  have hname : "é".toList = ['é'] := rfl
  rw [hname, List.append_assoc, List.singleton_append] at hsplit
  have hbytes := hplaces (before ++ left).length (by rw [hsplit]; simp) (by rw [hsplit]; simp)
  rw [hsplit, List.take_left, ← hoffset] at hbytes
  obtain ⟨offset, length⟩ := span
  cases hlength
  rcases hbytes with rfl | rfl
  · left
    rfl
  · right
    rfl

/-- The error labels two spans: the name of the target on the third line, and on the first one. -/
theorem faithful_of_parse_repetitive :
  let e : Error := .duplicateTarget "é" 3 ⟨13, 2⟩ ⟨0, 2⟩
  let spans := e.labels.map (·.span)
  parse repetitive = .error e ∧ spans = [⟨13, 2⟩, ⟨0, 2⟩] ∧ Faithful repetitive e spans
    ∧ (∀ span ∈ spans, IsRange repetitive span ∧ '\n' ∉ (textUnder repetitive span).toList)
    ∧ ∀ span ∈ spans.head?,
        e.line? = some ((textBefore repetitive span).toList.count '\n' + 1)
  := by
  intro e spans
  obtain ⟨e', hparse, hline, hfault⟩ := exists_error_iff_firstFault.2 firstFault_repetitive
  have hfaithful := faithful_of_parse hparse
  suffices he : e' = e by
    rw [he] at hparse hfaithful
    exact ⟨hparse, rfl, hfaithful⟩
  cases e' with
  | noTarget | malformed | duplicateDependency => cases hfault
  | duplicateTarget name number span first =>
    cases hline
    cases hfault
    cases hfaithful.1 with
    | duplicateTarget hshows hnames hfirst hfirstNames hnew hbefore =>
      -- the first declaration lies before the second one
      rcases hshows.span_repetitive with rfl | rfl <;>
        rcases hfirst.span_repetitive with rfl | rfl
      · cases hbefore
      · cases hbefore
      · rfl
      · exact absurd hbefore (by decide)

end IncrementalBuild.BuildFile
