import IncrementalBuild.BuildFile.Error
import IncrementalBuild.Proofs.Graph.PostOrder
import Mathlib.Data.List.Induction

/-!
# The grammar of build files

The grammar is stated here without the reader.  `contents` are the lines of a text, cut at
line feeds, each without a carriage return at its end.  A line that is
not blank is a command if it begins with a tab, and a rule if not.  `Grammatical` are the
lines of a build file.

`Breaks earlier line fault` says what is wrong with a line that comes after other lines; a
line has one fault at most.  `Clean` are lines none of which has a fault, and `FirstFault`
is the fault of the first line that has one.  The lines that are grammatical are those that
are clean and not all blank.
-/

namespace IncrementalBuild

/-- Two places in a list are the same, or one comes before the other. -/
theorem eq_or_exists_of_append_cons_eq {α : Type} {before before' after after' : List α}
    {a a' : α} (h : before ++ a :: after = before' ++ a' :: after') :
  (before = before' ∧ a = a') ∨ (∃ rest, before' = before ++ a :: rest)
    ∨ ∃ rest, before = before' ++ a' :: rest
  := by
  rcases List.append_eq_append_iff.1 h with ⟨rest, hbefore, hrest⟩ | ⟨rest, hbefore, hrest⟩
  · cases rest with
    | nil =>
      cases hrest
      left
      use by rw [hbefore, List.append_nil]
    | cons b rest =>
      cases hrest
      right; left
      use rest
  · cases rest with
    | nil =>
      cases hrest
      left
      use by rw [hbefore, List.append_nil]
    | cons b rest =>
      cases hrest
      right; right
      use rest

/-! ### The first repetition in a list -/

/-- An element that repeats an earlier one for the first time in a list: what is before it
is without repetitions. -/
structure RepeatsFirst {α : Type} (xs before : List α) (x : α) (after : List α) : Prop where
  split : xs = before ++ x :: after
  nodup : before.Nodup
  mem : x ∈ before

theorem exists_repeatsFirst {α : Type} {xs : List α} (h : ¬ xs.Nodup) :
  ∃ before x after, RepeatsFirst xs before x after
  := by
  induction xs using List.reverseRecOn with
  | nil => exact absurd List.nodup_nil h
  | append_singleton xs x ih =>
    by_cases hxs : xs.Nodup
    · have hmem : x ∈ xs := by
        by_contra hmem
        apply h
        rw [List.nodup_append_comm]
        apply List.Nodup.cons hmem hxs
      exact ⟨xs, x, [], rfl, hxs, hmem⟩
    · obtain ⟨before, y, after, hsplit, hnodup, hmem⟩ := ih hxs
      refine ⟨before, y, after ++ [x], ?_, hnodup, hmem⟩
      rw [hsplit, List.append_assoc, List.cons_append]

namespace RepeatsFirst

variable {α : Type} {xs before before' after after' : List α} {x x' : α}

theorem not_nodup (h : RepeatsFirst xs before x after) :
  ¬ xs.Nodup
  := by
  intro hnodup
  rw [h.split] at hnodup
  apply List.disjoint_of_nodup_append hnodup h.mem List.mem_cons_self

theorem unique (h : RepeatsFirst xs before x after) (h' : RepeatsFirst xs before' x' after') :
  x = x'
  := by
  -- The part before one of the two would contain the other with what it repeats.
  rcases eq_or_exists_of_append_cons_eq (h.split.symm.trans h'.split) with ⟨-, hx⟩
    | ⟨rest, hrest⟩ | ⟨rest, hrest⟩
  · apply hx
  · have hnodup := h'.nodup
    rw [hrest] at hnodup
    cases List.disjoint_of_nodup_append hnodup h.mem List.mem_cons_self
  · have hnodup := h.nodup
    rw [hrest] at hnodup
    cases List.disjoint_of_nodup_append hnodup h'.mem List.mem_cons_self

end RepeatsFirst

namespace BuildFile

open Text

/-! ### Lines -/

/-- A text without the carriage return it may end with. -/
def dropReturn (cs : List Char) : List Char :=
  if cs.getLast? = some '\r' then cs.dropLast else cs

/-- The contents of the lines of a text. -/
def contents (text : String) : List (List Char) :=
  (text.toList.splitOn '\n').map dropReturn

/-- A line says nothing. -/
def isBlankLine (line : List Char) : Bool :=
  line.all isBlank

/-- A line is a command. -/
def isCommandLine (line : List Char) : Bool :=
  !isBlankLine line && line.head? == some '\t'

/-- A line is a rule. -/
def isRuleLine (line : List Char) : Bool :=
  !isBlankLine line && line.head? != some '\t'

/-- The words of a text: what is between its blank characters. -/
def wordsOf (cs : List Char) : List String :=
  ((cs.splitOnP isBlank).filter (· ≠ [])).map String.ofList

/-- The words before the first colon of a line. -/
def namesOf (line : List Char) : List String :=
  wordsOf (line.takeWhile (· ≠ ':'))

/-- The words after the first colon of a line. -/
def dependenciesOf (line : List Char) : List String :=
  wordsOf (line.dropWhile (· ≠ ':')).tail

/-- A line is a rule with one colon and one word before it, the name of its target. -/
structure Declares (line : List Char) (name : String) : Prop where
  rule : isRuleLine line = true
  colon : line.count ':' = 1
  names : namesOf line = [name]

/-- Lines are those of a build file. -/
structure Grammatical (lines : List (List Char)) : Prop where
  notBlank : ∃ line ∈ lines, isBlankLine line = false
  first : ∀ line, lines.find? (!isBlankLine ·) = some line → line.head? ≠ some '\t'
  colon : ∀ line ∈ lines, isRuleLine line = true → line.count ':' = 1
  name : ∀ line ∈ lines, isRuleLine line = true → (namesOf line).length = 1
  names : ((lines.filter isRuleLine).flatMap namesOf).Nodup
  dependencies : ∀ line ∈ lines, isRuleLine line = true → (dependenciesOf line).Nodup

instance (lines : List (List Char)) : Decidable (Grammatical lines) :=
  decidable_of_iff
    ((∃ line ∈ lines, isBlankLine line = false)
      ∧ (∀ line ∈ lines.find? (!isBlankLine ·), line.head? ≠ some '\t')
      ∧ (∀ line ∈ lines, isRuleLine line = true → line.count ':' = 1)
      ∧ (∀ line ∈ lines, isRuleLine line = true → (namesOf line).length = 1)
      ∧ ((lines.filter isRuleLine).flatMap namesOf).Nodup
      ∧ ∀ line ∈ lines, isRuleLine line = true → (dependenciesOf line).Nodup)
    ⟨fun ⟨hnotBlank, hfirst, hcolon, hname, hnames, hdependencies⟩ =>
        ⟨hnotBlank, hfirst, hcolon, hname, hnames, hdependencies⟩,
      fun h => ⟨h.notBlank, h.first, h.colon, h.name, h.names, h.dependencies⟩⟩

/-! ### Faults -/

/-- What is wrong with a line. -/
inductive Fault
  | malformed (kind : Malformation)
  | duplicateTarget (name : String)
  | duplicateDependency (target dependency : String)
deriving DecidableEq, Repr

/-- What is wrong with the line that is to blame for an error. -/
def Error.fault? : Error → Option Fault
  | .noTarget => none
  | .malformed kind _ _ => some (.malformed kind)
  | .duplicateTarget name _ _ _ => some (.duplicateTarget name)
  | .duplicateDependency target dependency _ _ => some (.duplicateDependency target dependency)

/-- What is wrong with a line that comes after other lines. -/
inductive Breaks (earlier : List (List Char)) (line : List Char) : Fault → Prop
  | commandBeforeTarget (hcommand : isCommandLine line = true)
      (hearlier : ∀ other ∈ earlier, isRuleLine other = false) :
    Breaks earlier line (.malformed .commandBeforeTarget)
  | missingColon (hrule : isRuleLine line = true) (hcolon : line.count ':' = 0) :
    Breaks earlier line (.malformed .missingColon)
  | extraColon (hrule : isRuleLine line = true) (hcolon : 2 ≤ line.count ':') :
    Breaks earlier line (.malformed .extraColon)
  | emptyName (hrule : isRuleLine line = true) (hcolon : line.count ':' = 1)
      (hnames : namesOf line = []) :
    Breaks earlier line (.malformed .emptyName)
  | invalidName (hrule : isRuleLine line = true) (hcolon : line.count ':' = 1)
      (hnames : 2 ≤ (namesOf line).length) :
    Breaks earlier line
      (.malformed (.invalidName (String.ofList (trim (line.takeWhile (· ≠ ':'))))))
  | duplicateTarget {name : String} (hdeclares : Declares line name)
      (hearlier : ∃ other ∈ earlier, Declares other name) :
    Breaks earlier line (.duplicateTarget name)
  | duplicateDependency {target dependency : String} {before after : List String}
      (hdeclares : Declares line target) (hearlier : ∀ other ∈ earlier, ¬ Declares other target)
      (hrepeats : RepeatsFirst (dependenciesOf line) before dependency after) :
    Breaks earlier line (.duplicateDependency target dependency)

/-- No line has a fault. -/
def Clean (lines : List (List Char)) : Prop :=
  ∀ (earlier later : List (List Char)) (line : List Char), lines = earlier ++ line :: later →
    ∀ fault, ¬ Breaks earlier line fault

/-- The first line with a fault has the given number, counted from one. -/
def FirstFault (lines : List (List Char)) (number : Nat) (fault : Fault) : Prop :=
  ∃ earlier line later, lines = earlier ++ line :: later ∧ number = earlier.length + 1
    ∧ Clean earlier ∧ Breaks earlier line fault

section

variable {earlier lines : List (List Char)} {line : List Char} {fault : Fault}

/-! ### Kinds of lines -/

theorem isCommandLine_iff :
  isCommandLine line = true ↔ isBlankLine line = false ∧ line.head? = some '\t'
  := by simp [isCommandLine]

theorem isRuleLine_iff :
  isRuleLine line = true ↔ isBlankLine line = false ∧ line.head? ≠ some '\t'
  := by simp [isRuleLine]

theorem isRuleLine_of_isCommandLine (h : isCommandLine line = true) :
  isRuleLine line = false
  := by simp [isRuleLine, (isCommandLine_iff.1 h).2]

theorem isRuleLine_or_isCommandLine (h : isBlankLine line = false) :
  isRuleLine line = true ∨ isCommandLine line = true
  := by
  rw [isRuleLine_iff, isCommandLine_iff]
  by_cases htab : line.head? = some '\t'
  · exact .inr ⟨h, htab⟩
  · exact .inl ⟨h, htab⟩

theorem Declares.name_eq {name other : String} (h : Declares line name)
    (h' : Declares line other) :
  name = other
  := List.singleton_inj.1 (h.names.symm.trans h'.names)

namespace Breaks

/-- A blank line has no fault. -/
theorem isBlankLine_eq_false (h : Breaks earlier line fault) :
  isBlankLine line = false
  := by
  cases h with
  | commandBeforeTarget hcommand => apply (isCommandLine_iff.1 hcommand).1
  | missingColon hrule | extraColon hrule | emptyName hrule | invalidName hrule =>
    apply (isRuleLine_iff.1 hrule).1
  | duplicateTarget hdeclares | duplicateDependency hdeclares =>
    apply (isRuleLine_iff.1 hdeclares.rule).1

/-- A line has one fault at most. -/
theorem unique {fault' : Fault} (h : Breaks earlier line fault)
    (h' : Breaks earlier line fault') :
  fault = fault'
  := by
  -- Two kinds of faults differ in the kind of the line, in the number of its colons or of its
  -- names, or in whether its name is new.
  cases h <;> cases h' <;> grind [isRuleLine_of_isCommandLine, Declares, RepeatsFirst.unique]

end Breaks

/-! ### Lines without a fault, and the first fault -/

theorem clean_nil :
  Clean []
  := by
  intro earlier later line h
  simp at h

theorem clean_snoc :
  Clean (lines ++ [line]) ↔ Clean lines ∧ ∀ fault, ¬ Breaks lines line fault
  := by
  constructor
  · intro h
    constructor
    · intro earlier later other hsplit
      apply h earlier (later ++ [line]) other
      rw [hsplit, List.append_assoc, List.cons_append]
    · apply h lines [] line rfl
  · rintro ⟨hlines, hline⟩ earlier later other hsplit
    rcases eq_or_exists_of_snoc_eq_append_cons hsplit with ⟨rfl, rfl⟩ | ⟨rest, hrest⟩
    · apply hline
    · apply hlines earlier rest other hrest

theorem clean_of_isBlankLine (h : ∀ line ∈ lines, isBlankLine line = true) :
  Clean lines
  := by
  intro earlier later line hsplit fault hbreaks
  cases (h line (by simp [hsplit])).symm.trans hbreaks.isBlankLine_eq_false

namespace FirstFault

variable {number number' : Nat} {fault' : Fault}

theorem not_clean (h : FirstFault lines number fault) :
  ¬ Clean lines
  := by
  obtain ⟨earlier, line, later, hsplit, -, -, hbreaks⟩ := h
  intro hclean
  apply hclean earlier later line hsplit fault hbreaks

theorem append (h : FirstFault lines number fault) (rest : List (List Char)) :
  FirstFault (lines ++ rest) number fault
  := by
  obtain ⟨earlier, line, later, hsplit, hnumber, hclean, hbreaks⟩ := h
  refine ⟨earlier, line, later ++ rest, ?_, hnumber, hclean, hbreaks⟩
  rw [hsplit, List.append_assoc, List.cons_append]

theorem unique (h : FirstFault lines number fault) (h' : FirstFault lines number' fault') :
  number = number' ∧ fault = fault'
  := by
  obtain ⟨earlier, line, later, hsplit, rfl, hclean, hbreaks⟩ := h
  obtain ⟨earlier', line', later', hsplit', rfl, hclean', hbreaks'⟩ := h'
  -- The lines before one of the two would contain the other.
  rcases eq_or_exists_of_append_cons_eq (hsplit.symm.trans hsplit') with ⟨rfl, rfl⟩
    | ⟨rest, hrest⟩ | ⟨rest, hrest⟩
  · use rfl
    apply hbreaks.unique hbreaks'
  · cases hclean' earlier rest line hrest fault hbreaks
  · cases hclean earlier' rest line' hrest fault' hbreaks'

end FirstFault

/-! ### Grammatical lines are clean lines -/

/-- In clean lines a rule comes before the first command. -/
theorem Clean.exists_isRuleLine (h : Clean lines)
    (hnotBlank : ∃ line ∈ lines, isBlankLine line = false) :
  ∃ line ∈ lines, isRuleLine line = true
  := by
  obtain ⟨line, hmem, hblank⟩ := hnotBlank
  obtain ⟨earlier, later, hsplit⟩ := List.append_of_mem hmem
  by_contra hnone
  have hrule : ∀ other ∈ lines, isRuleLine other = false := by simpa using hnone
  rcases isRuleLine_or_isCommandLine hblank with hline | hcommand
  · exact absurd hline (by simp [hrule line hmem])
  · apply h earlier later line hsplit (.malformed .commandBeforeTarget)
    refine .commandBeforeTarget hcommand fun other hother => hrule other ?_
    rw [hsplit]
    apply List.mem_append_left _ hother

/-- A rule without a fault declares a name that is new, and its dependencies differ. -/
theorem exists_declares_of_not_breaks (hrule : isRuleLine line = true)
    (h : ∀ fault, ¬ Breaks earlier line fault) :
  ∃ name, Declares line name ∧ (∀ other ∈ earlier, ¬ Declares other name)
    ∧ (dependenciesOf line).Nodup
  := by
  have hcolon : line.count ':' = 1 := by
    by_contra hcolon
    rcases Nat.lt_or_gt_of_ne hcolon with hlt | hgt
    · apply h _ (.missingColon hrule (Nat.lt_one_iff.1 hlt))
    · apply h _ (.extraColon hrule hgt)
  obtain ⟨name, hname⟩ : ∃ name, namesOf line = [name] := by
    match hnames : namesOf line with
    | [] => exact absurd (.emptyName hrule hcolon hnames) (h _)
    | [name] => exact ⟨name, rfl⟩
    | _ :: _ :: _ => exact absurd (.invalidName hrule hcolon (by simp [hnames])) (h _)
  have hdeclares : Declares line name := ⟨hrule, hcolon, hname⟩
  have hnew : ∀ other ∈ earlier, ¬ Declares other name := by
    intro other hmem hother
    apply h _ (.duplicateTarget hdeclares ⟨other, hmem, hother⟩)
  refine ⟨name, hdeclares, hnew, ?_⟩
  by_contra hnodup
  obtain ⟨before, dependency, after, hrepeats⟩ := exists_repeatsFirst hnodup
  apply h _ (.duplicateDependency hdeclares hnew hrepeats)

/-- A rule that declares a name that is new has no fault if its dependencies differ. -/
theorem Declares.not_breaks {name : String} (h : Declares line name)
    (hnew : ∀ other ∈ earlier, ¬ Declares other name) (hnodup : (dependenciesOf line).Nodup) :
  ¬ Breaks earlier line fault
  := by
  have hcolon := h.colon
  intro hbreaks
  cases hbreaks with
  | commandBeforeTarget hcommand =>
    apply (isRuleLine_iff.1 h.rule).2 (isCommandLine_iff.1 hcommand).2
  | missingColon _ hcolon' => omega
  | extraColon _ hcolon' => omega
  | emptyName _ _ hnames => simp [h.names] at hnames
  | invalidName _ _ hnames => simp [h.names] at hnames
  | duplicateTarget hdeclares hearlier =>
    obtain ⟨other, hmem, hother⟩ := hearlier
    rw [h.name_eq hdeclares] at hnew
    apply hnew other hmem hother
  | duplicateDependency _ _ hrepeats => apply hrepeats.not_nodup hnodup

/-- A command that comes after a rule has no fault. -/
theorem not_breaks_of_isCommandLine (hcommand : isCommandLine line = true)
    (hearlier : earlier.any isRuleLine = true) :
  ¬ Breaks earlier line fault
  := by
  have hrule : ¬ isRuleLine line = true := by simp [isRuleLine_of_isCommandLine hcommand]
  intro hbreaks
  cases hbreaks with
  | commandBeforeTarget _ hnone =>
    obtain ⟨other, hmem, hother⟩ := List.any_eq_true.1 hearlier
    exact absurd hother (by simp [hnone other hmem])
  | missingColon h | extraColon h | emptyName h | invalidName h => apply hrule h
  | duplicateTarget h | duplicateDependency h => apply hrule h.rule

/-- The names before the colons of clean lines are different. -/
theorem Clean.nodup_names (h : Clean lines) :
  ((lines.filter isRuleLine).flatMap namesOf).Nodup
  := by
  induction lines using List.reverseRecOn with
  | nil => apply List.nodup_nil
  | append_singleton lines line ih =>
    obtain ⟨hlines, hline⟩ := clean_snoc.1 h
    rw [List.filter_append, List.flatMap_append]
    by_cases hrule : isRuleLine line = true
    · obtain ⟨name, hdeclares, hnew, -⟩ := exists_declares_of_not_breaks hrule hline
      rw [List.filter_singleton, hrule, cond_true, List.flatMap_singleton, hdeclares.names]
      apply List.Nodup.append (ih hlines) (List.nodup_singleton name)
      intro other hother hname
      rw [List.mem_singleton.1 hname] at hother
      obtain ⟨earlier, hearlier, hmem⟩ := List.mem_flatMap.1 hother
      obtain ⟨hearlier, hearlierRule⟩ := List.mem_filter.1 hearlier
      obtain ⟨before, after, hsplit⟩ := List.append_of_mem hearlier
      obtain ⟨name', hdeclares', -⟩ :=
        exists_declares_of_not_breaks hearlierRule (hlines before after earlier hsplit)
      rw [hdeclares'.names] at hmem
      rw [List.mem_singleton.1 hmem] at hnew
      apply hnew earlier hearlier hdeclares'
    · simpa [hrule] using ih hlines

theorem Clean.grammatical (h : Clean lines) (hnotBlank : ∃ line ∈ lines, isBlankLine line = false) :
  Grammatical lines
  := by
  have hrules : ∀ line ∈ lines, isRuleLine line = true → ∃ name, Declares line name
      ∧ (dependenciesOf line).Nodup := by
    intro line hmem hrule
    obtain ⟨earlier, later, hsplit⟩ := List.append_of_mem hmem
    obtain ⟨name, hdeclares, -, hnodup⟩ :=
      exists_declares_of_not_breaks hrule (h earlier later line hsplit)
    exact ⟨name, hdeclares, hnodup⟩
  constructor
  case notBlank => apply hnotBlank
  case first =>
    intro line hfind htab
    obtain ⟨hline, earlier, later, hsplit, hearlier⟩ := List.find?_eq_some_iff_append.1 hfind
    apply h earlier later line hsplit (.malformed .commandBeforeTarget)
    refine .commandBeforeTarget (isCommandLine_iff.2 ⟨by simpa using hline, htab⟩) ?_
    intro other hother
    have hblank : isBlankLine other = true := by simpa using hearlier other hother
    simp [isRuleLine, hblank]
  case colon =>
    intro line hmem hrule
    obtain ⟨name, hdeclares, -⟩ := hrules line hmem hrule
    apply hdeclares.colon
  case name =>
    intro line hmem hrule
    obtain ⟨name, hdeclares, -⟩ := hrules line hmem hrule
    rw [hdeclares.names, List.length_singleton]
  case names => apply h.nodup_names
  case dependencies =>
    intro line hmem hrule
    obtain ⟨name, -, hnodup⟩ := hrules line hmem hrule
    apply hnodup

theorem Grammatical.clean (h : Grammatical lines) :
  Clean lines
  := by
  intro earlier later line hsplit fault hbreaks
  have hmem : line ∈ lines := by simp [hsplit]
  cases hbreaks with
  | commandBeforeTarget hcommand hearlier =>
    have hfirst := h.first
    rw [hsplit, List.find?_append] at hfirst
    cases hfind : earlier.find? (!isBlankLine ·) with
    | none =>
      obtain ⟨hblank, htab⟩ := isCommandLine_iff.1 hcommand
      rw [hfind, Option.none_or, List.find?_cons, hblank] at hfirst
      apply hfirst line rfl htab
    | some other =>
      rw [hfind, Option.some_or] at hfirst
      have hblank : isBlankLine other = false := by simpa using List.find?_some hfind
      have hrule : isRuleLine other = true := isRuleLine_iff.2 ⟨hblank, hfirst other rfl⟩
      cases hrule.symm.trans (hearlier other (List.mem_of_find?_eq_some hfind))
  | missingColon hrule hcolon =>
    have := h.colon line hmem hrule
    omega
  | extraColon hrule hcolon =>
    have := h.colon line hmem hrule
    omega
  | emptyName hrule _ hnames =>
    have := h.name line hmem hrule
    simp [hnames] at this
  | invalidName hrule _ hnames =>
    have := h.name line hmem hrule
    omega
  | duplicateTarget hdeclares hearlier =>
    obtain ⟨other, hother, hdeclares'⟩ := hearlier
    have hnames := h.names
    rw [hsplit, List.filter_append, List.flatMap_append] at hnames
    apply List.disjoint_of_nodup_append hnames
    · exact List.mem_flatMap.2 ⟨other, List.mem_filter.2 ⟨hother, hdeclares'.rule⟩,
        by rw [hdeclares'.names, List.mem_singleton]⟩
    · exact List.mem_flatMap.2 ⟨line, List.mem_filter.2 ⟨List.mem_cons_self, hdeclares.rule⟩,
        by rw [hdeclares.names, List.mem_singleton]⟩
  | duplicateDependency hdeclares _ hrepeats =>
    apply hrepeats.not_nodup (h.dependencies line hmem hdeclares.rule)

theorem grammatical_iff :
  Grammatical lines ↔ Clean lines ∧ ∃ line ∈ lines, isBlankLine line = false
  := ⟨fun h => ⟨h.clean, h.notBlank⟩, fun h => h.1.grammatical h.2⟩

end

end BuildFile

end IncrementalBuild
