import IncrementalBuild.Proofs.BuildFile.Acceptance
import IncrementalBuild.Proofs.BuildFile.Clause
import Mathlib.Logic.Relation

/-!
# The layout of a build file

The layout of a text can be changed: a line feed can get or lose a carriage return before it, a
blank line can be put in or taken out, and so can blank characters at the end of a line, or between
the tab and the command.  Any number of such changes make of a text another that is `Relaid`; which
of its lines correspond to those of the first is told by a relation between numbers.

Texts that are relaid say the same, and so they are read alike: as the same graph, or with errors
which say that the same is wrong, about lines that correspond.
-/

namespace IncrementalBuild.BuildFile

open Text

/-! ### Changes in the layout -/

/-- Characters are blank, and none of them is a line feed. -/
def IsPadding (cs : List Char) : Prop :=
  ∀ c ∈ cs, isBlank c = true ∧ c ≠ '\n'

instance (cs : List Char) : Decidable (IsPadding cs) :=
  List.decidableBAll _ cs

/-- A change in the layout of a text, with the numbers of lines that correspond. -/
inductive Edit : (Nat → Nat → Prop) → String → String → Prop
  /-- A carriage return is put before a line feed. -/
  | ending (before after : String) : Edit Eq (before ++ "\n" ++ after) (before ++ "\r\n" ++ after)
  /-- A blank line is put before a line. -/
  | blankLine (before blank after : String) (hbefore : ∀ c ∈ before.toList.getLast?, c = '\n')
      (hblank : IsPadding blank.toList) :
    Edit (fun n n' => n' = if n ≤ before.toList.count '\n' then n else n + 1) (before ++ after)
      (before ++ blank ++ "\n" ++ after)
  /-- A blank line is put after the last line. -/
  | lastLine (before blank : String) (hblank : IsPadding blank.toList) :
    Edit Eq before (before ++ "\n" ++ blank)
  /-- Blank characters are put at the end of a line, or before others that are there. -/
  | trailing (before blank rest after : String) (hblank : IsPadding blank.toList)
      (hrest : IsPadding rest.toList) (hafter : ∀ c ∈ after.toList.head?, c = '\n') :
    Edit Eq (before ++ rest ++ after) (before ++ blank ++ rest ++ after)
  /-- Blank characters are put behind the tab at the beginning of a line. -/
  | leading (before blank after : String) (hbefore : ∀ c ∈ before.toList.getLast?, c = '\n')
      (hblank : IsPadding blank.toList) :
    Edit Eq (before ++ "\t" ++ after) (before ++ "\t" ++ blank ++ after)

/-- A text is made of another by changes in the layout, each of them done or undone. -/
inductive Relaid : (Nat → Nat → Prop) → String → String → Prop
  | edit {ρ : Nat → Nat → Prop} {text text' : String} (h : Edit ρ text text') : Relaid ρ text text'
  | symm {ρ : Nat → Nat → Prop} {text text' : String} (h : Relaid ρ text text') :
    Relaid (flip ρ) text' text
  | trans {ρ σ : Nat → Nat → Prop} {text text' text'' : String} (h : Relaid ρ text text')
      (h' : Relaid σ text' text'') :
    Relaid (Relation.Comp ρ σ) text text''

/-! ### What the lines of a text say -/

section

variable {before line line' after cs blank rest : List Char}

theorem IsPadding.isBlank (h : IsPadding blank) :
  ∀ c ∈ blank, Text.isBlank c = true
  := fun c hc => (h c hc).1

theorem IsPadding.notMem (h : IsPadding blank) :
  '\n' ∉ blank
  := fun hmem => (h _ hmem).2 rfl

theorem clausesOf_append_feed (cs rest : List Char) :
  clausesOf (cs ++ '\n' :: rest) = clausesOf cs ++ clausesOf rest
  := by rw [clausesOf, List.splitOn_append_cons_self, List.map_append, ← clausesOf, ← clausesOf]

theorem clausesOf_of_notMem (h : '\n' ∉ line) :
  clausesOf line = [Clause.ofContent? line]
  := by rw [clausesOf, List.splitOn_eq_singleton h, List.map_singleton]

theorem clausesOf_padding (h : IsPadding blank) :
  clausesOf blank = [none]
  := by rw [clausesOf_of_notMem h.notMem, ofContent?_of_isBlankLine (List.all_eq_true.2 h.isBlank)]

/-- There is one line more than there are line feeds. -/
theorem length_clausesOf (cs : List Char) :
  (clausesOf cs).length = cs.count '\n' + 1
  := by
  rw [clausesOf, List.length_map]
  induction cs with
  | nil => rfl
  | cons c cs ih =>
    rw [List.splitOn_cons_eq_if_modifyHead, List.count_cons]
    split
    · rw [List.length_cons, ih]
    · rw [List.length_modifyHead, ih, Nat.add_zero]

/-- The lines of a text that is empty or ends with a line feed say the same, whatever follows. -/
theorem clausesOf_append (h : ∀ c ∈ before.getLast?, c = '\n') :
  ∃ left, left.length = before.count '\n'
    ∧ ∀ after, clausesOf (before ++ after) = left ++ clausesOf after
  := by
  cases before using List.reverseRecOn with
  | nil => exact ⟨[], rfl, fun _ => rfl⟩
  | append_singleton before c =>
    obtain rfl : c = '\n' := h c List.getLast?_concat
    refine ⟨clausesOf before, ?_, fun after => ?_⟩
    · rw [length_clausesOf, List.count_append, List.count_singleton_self]
    · rw [List.append_assoc, List.singleton_append, clausesOf_append_feed]

/-- A line can be replaced by one that says the same. -/
theorem clausesOf_congr (hbefore : ∀ c ∈ before.getLast?, c = '\n')
    (hafter : ∀ c ∈ after.head?, c = '\n') (hline : '\n' ∉ line) (hline' : '\n' ∉ line')
    (hsame : Clause.ofContent? line = Clause.ofContent? line') :
  clausesOf (before ++ line ++ after) = clausesOf (before ++ line' ++ after)
  := by
  obtain ⟨left, -, hleft⟩ := clausesOf_append hbefore
  rw [List.append_assoc, List.append_assoc, hleft, hleft]
  cases after with
  | nil =>
    rw [List.append_nil, List.append_nil, clausesOf_of_notMem hline, clausesOf_of_notMem hline',
      hsame]
  | cons c after =>
    obtain rfl : c = '\n' := hafter c rfl
    rw [clausesOf_append_feed, clausesOf_append_feed, clausesOf_of_notMem hline,
      clausesOf_of_notMem hline', hsame]

/-- A text is its lines up to the last line feed, and one more line. -/
theorem exists_eq_append_line (cs : List Char) :
  ∃ before line, cs = before ++ line ∧ (∀ c ∈ before.getLast?, c = '\n') ∧ '\n' ∉ line
  := by
  induction cs using List.reverseRecOn with
  | nil => exact ⟨[], [], rfl, by simp, List.not_mem_nil⟩
  | append_singleton cs c ih =>
    by_cases hc : c = '\n'
    · exact ⟨cs ++ [c], [], (List.append_nil _).symm, by simp [hc], List.not_mem_nil⟩
    · obtain ⟨before, line, rfl, hbefore, hline⟩ := ih
      refine ⟨before, line ++ [c], List.append_assoc _ _ _, hbefore, ?_⟩
      rw [List.mem_append, List.mem_singleton, not_or]
      exact ⟨hline, Ne.symm hc⟩

/-- A text is its first line, and what follows the line. -/
theorem exists_eq_line_append (cs : List Char) :
  ∃ line after, cs = line ++ after ∧ '\n' ∉ line ∧ ∀ c ∈ after.head?, c = '\n'
  := by
  refine ⟨cs.takeWhile (· ≠ '\n'), cs.dropWhile (· ≠ '\n'),
    List.takeWhile_append_dropWhile.symm, notMem_takeWhile, fun c hc => ?_⟩
  have hhead := List.head?_dropWhile_not (· ≠ '\n') cs
  rw [Option.mem_def.1 hc] at hhead
  simpa using hhead

/-- Blank characters at the end of a line say nothing. -/
theorem clausesOf_trailing (hblank : IsPadding blank) (hrest : IsPadding rest)
    (hafter : ∀ c ∈ after.head?, c = '\n') :
  clausesOf (cs ++ rest ++ after) = clausesOf (cs ++ blank ++ rest ++ after)
  := by
  obtain ⟨before, line, rfl, hbefore, hline⟩ := exists_eq_append_line cs
  have hsame : Clause.ofContent? (line ++ rest) = Clause.ofContent? (line ++ blank ++ rest) := by
    rw [ofContent?_append_blank hrest.isBlank, ofContent?_append_blank hrest.isBlank,
      ofContent?_append_blank hblank.isBlank]
  have h := clausesOf_congr hbefore hafter (by simp [hline, hrest.notMem])
    (by simp [hline, hrest.notMem, hblank.notMem]) hsame
  simpa [List.append_assoc] using h

/-- Blank characters between the tab and the command say nothing. -/
theorem clausesOf_leading (hbefore : ∀ c ∈ before.getLast?, c = '\n') (hblank : IsPadding blank)
    (after : List Char) :
  clausesOf (before ++ '\t' :: after) = clausesOf (before ++ '\t' :: (blank ++ after))
  := by
  obtain ⟨line, rest, rfl, hline, hrest⟩ := exists_eq_line_append after
  have hsame := (ofContent?_tab_blank_append hblank.isBlank line).symm
  have h := clausesOf_congr hbefore hrest (by simp [hline]) (by simp [hline, hblank.notMem]) hsame
  simpa [List.append_assoc] using h

end

/-! ### Texts that are relaid -/

section

variable {text text' : String} {ρ σ : Nat → Nat → Prop}

theorem saysSame_of_eq (h : clausesOf text.toList = clausesOf text'.toList) :
  SaysSame Eq text text'
  := by
  rw [SaysSame, h]
  exact List.forall₂_same.2 fun _ _ => ⟨rfl, rfl⟩

/-- A line that says nothing moves the lines behind it by one. -/
theorem saysSame_of_insert {left right : List (Option Clause)}
    (h : clausesOf text.toList = left ++ right)
    (h' : clausesOf text'.toList = left ++ none :: right) :
  SaysSame (fun n n' => n' = if n ≤ left.length then n else n + 1) text text'
  := by
  rw [SaysSame, h, h', List.zipIdx_append, List.zipIdx_append, List.zipIdx_cons, List.filter_append,
    List.filter_append, List.filter_cons_of_neg (by simp)]
  apply List.rel_append
  · refine List.forall₂_same.2 fun said hsaid => ⟨rfl, ?_⟩
    have hlt := List.snd_lt_add_of_mem_zipIdx (List.mem_of_mem_filter hsaid)
    rw [if_pos (by omega)]
  · rw [List.zipIdx_succ, List.filter_map, List.forall₂_map_right_iff]
    refine List.forall₂_same.2 fun said hsaid => ⟨rfl, ?_⟩
    have hle := List.le_snd_of_mem_zipIdx (List.mem_of_mem_filter hsaid)
    rw [if_neg (by omega)]

theorem saysSame_of_last (h : clausesOf text'.toList = clausesOf text.toList ++ [none]) :
  SaysSame Eq text text'
  := by
  rw [SaysSame, h, List.zipIdx_append, List.filter_append]
  simp [List.forall₂_same]

/-- A change in the layout leaves what the lines say. -/
theorem Edit.saysSame (h : Edit ρ text text') :
  SaysSame ρ text text'
  := by
  cases h with
  | ending before after =>
    apply saysSame_of_eq
    have hreturn : clausesOf (before.toList ++ [] ++ '\n' :: after.toList)
        = clausesOf (before.toList ++ ['\r'] ++ [] ++ '\n' :: after.toList) :=
      clausesOf_trailing (by decide) (by simp [IsPadding]) (by simp)
    simpa using hreturn
  | blankLine before blank after hbefore hblank =>
    obtain ⟨left, hlength, hleft⟩ := clausesOf_append hbefore
    have hlist : (before ++ blank ++ "\n" ++ after).toList
        = before.toList ++ (blank.toList ++ '\n' :: after.toList) := by simp
    rw [← hlength]
    apply saysSame_of_insert
    · rw [String.toList_append, hleft]
    · rw [hlist, hleft, clausesOf_append_feed, clausesOf_padding hblank, List.singleton_append]
  | lastLine _ blank hblank =>
    have hlist : (text ++ "\n" ++ blank).toList = text.toList ++ '\n' :: blank.toList := by simp
    apply saysSame_of_last
    rw [hlist, clausesOf_append_feed, clausesOf_padding hblank]
  | trailing before blank rest after hblank hrest hafter =>
    apply saysSame_of_eq
    simpa using clausesOf_trailing hblank hrest hafter
  | leading before blank after hbefore hblank =>
    apply saysSame_of_eq
    simpa using clausesOf_leading hbefore hblank after.toList

/-! ### Outcomes that are alike -/

namespace Alike

variable {α : Type} {a b c : Except Error α}

theorem symm (h : Alike ρ Eq a b) :
  Alike (flip ρ) Eq b a
  := by
  cases h with
  | ok h => exact .ok h.symm
  | @error e e' hfault hline =>
    refine .error hfault.symm ?_
    generalize e.line? = line at hline
    generalize e'.line? = line' at hline
    cases hline with
    | some h => exact .some h
    | none => exact .none

theorem trans (h : Alike ρ Eq a b) (h' : Alike σ Eq b c) :
  Alike (Relation.Comp ρ σ) Eq a c
  := by
  cases h with
  | ok h =>
    cases h' with
    | ok h' => exact .ok (h.trans h')
  | @error e e' hfault hline =>
    cases h' with
    | @error _ e'' hfault' hline' =>
      refine .error (hfault.trans hfault') ?_
      generalize e.line? = line at hline
      generalize e'.line? = line' at hline hline'
      generalize e''.line? = line'' at hline'
      cases hline with
      | some h =>
        cases hline' with
        | some h' => exact .some ⟨_, h, h'⟩
      | none =>
        cases hline'
        exact .none

end Alike

/-! ### Lines that correspond -/

theorem Edit.biUnique (h : Edit ρ text text') :
  Relator.BiUnique ρ
  := by
  cases h with
  | ending | lastLine | trailing | leading =>
    exact ⟨fun _ _ _ h h' => h.trans h'.symm, fun _ _ _ h h' => h.symm.trans h'⟩
  | blankLine =>
    refine ⟨fun n n' m h h' => ?_, fun n m m' h h' => h.trans h'.symm⟩
    -- the numbers before the line that is put in stay, and those behind it stay behind it
    dsimp only at h h'
    split at h <;> split at h' <;> omega

/-- A line corresponds to one line at most. -/
theorem Relaid.biUnique (h : Relaid ρ text text') :
  Relator.BiUnique ρ
  := by
  induction h with
  | edit h => exact h.biUnique
  | symm _ ih => exact ⟨fun _ _ _ h h' => ih.2 h h', fun _ _ _ h h' => ih.1 h h'⟩
  | trans _ _ ih ih' =>
    constructor
    · rintro a b c ⟨m, h, h'⟩ ⟨m', k, k'⟩
      rw [ih'.1 h' k'] at h
      exact ih.1 h k
    · rintro a b c ⟨m, h, h'⟩ ⟨m', k, k'⟩
      rw [ih.2 h k] at h'
      exact ih'.2 h' k'

/-- Texts that are relaid are read alike: as one and the same graph, or with errors which say that
the same is wrong, about lines that correspond, or about none.  A line corresponds to one line at
most. -/
theorem parse_relaid (h : Relaid ρ text text') :
  Relator.BiUnique ρ ∧ Alike ρ Eq (parse text) (parse text')
  := by
  refine ⟨h.biUnique, ?_⟩
  induction h with
  | edit h => exact h.saysSame.parse_alike
  | symm _ ih => exact ih.symm
  | trans _ _ ih ih' => exact ih.trans ih'

end

/-- A text whose third line has two words before the colon. -/
def narrow : String :=
  "a: b\n\tcc\nb c:\n"

/-- The same with another ending, a blank line, and blank characters before a command and at the
end of a line. -/
def wide : String :=
  "a: b\r\n \n\t  cc\nb c: \n"

theorem relaid_wide :
  ∃ ρ, Relaid ρ narrow wide ∧ ρ 3 4
  := by
  have hending : Edit Eq narrow "a: b\r\n\tcc\nb c:\n" := .ending "a: b" "\tcc\nb c:\n"
  have hblank : Edit _ "a: b\r\n\tcc\nb c:\n" "a: b\r\n \n\tcc\nb c:\n" :=
    .blankLine "a: b\r\n" " " "\tcc\nb c:\n" (by rintro _ ⟨⟩; rfl) (by decide)
  have hleading : Edit Eq "a: b\r\n \n\tcc\nb c:\n" "a: b\r\n \n\t  cc\nb c:\n" :=
    .leading "a: b\r\n \n" "  " "cc\nb c:\n" (by rintro _ ⟨⟩; rfl) (by decide)
  have htrailing : Edit Eq "a: b\r\n \n\t  cc\nb c:\n" wide :=
    .trailing "a: b\r\n \n\t  cc\nb c:" " " "" "\n" (by decide) (by decide) (by rintro _ ⟨⟩; rfl)
  refine ⟨_, ((Relaid.edit hending).trans (.edit hblank)).trans
    ((Relaid.edit hleading).trans (.edit htrailing)), ?_⟩
  exact ⟨4, ⟨3, rfl, rfl⟩, 4, rfl, rfl⟩

theorem firstFault_narrow :
  FirstFault (contents narrow) 3 (.malformed (.invalidName "b c"))
  := by
  have hrule : Declares "a: b".toList "a" := ⟨by decide, by decide, by decide⟩
  have hclean : Clean ["a: b".toList, "\tcc".toList] := by
    refine clean_snoc.2 ⟨clean_snoc.2 ⟨clean_nil, fun fault => ?_⟩, fun fault => ?_⟩
    · apply hrule.not_breaks (by simp) (by decide)
    · apply not_breaks_of_isCommandLine <;> decide
  exact ⟨["a: b".toList, "\tcc".toList], "b c:".toList, [[]], by decide, rfl, hclean,
    .invalidName (by decide) (by decide) (by decide)⟩

theorem parse_relaid_wide :
  ∃ ρ e e', Relaid ρ narrow wide ∧ Relator.BiUnique ρ ∧ Alike ρ Eq (parse narrow) (parse wide)
    ∧ parse narrow = .error e ∧ e.line? = some 3 ∧ parse wide = .error e' ∧ e'.line? = some 4
    ∧ e'.fault? = some (.malformed (.invalidName "b c"))
  := by
  obtain ⟨ρ, hrelaid, hthree⟩ := relaid_wide
  obtain ⟨e, he, hline, hfault⟩ := exists_error_iff_firstFault.2 firstFault_narrow
  obtain ⟨hunique, halike⟩ := parse_relaid hrelaid
  obtain ⟨e', hwide, hfault', hline'⟩ : ∃ e', parse wide = .error e' ∧ e.fault? = e'.fault?
      ∧ Option.Rel ρ e.line? e'.line? := by
    have h := halike
    rw [he] at h
    generalize parse wide = outcome at h
    cases h with
    | error hfault hline => exact ⟨_, rfl, hfault, hline⟩
  refine ⟨ρ, e, e', hrelaid, hunique, halike, he, hline, hwide, ?_, hfault'.symm.trans hfault⟩
  rw [hline] at hline'
  generalize e'.line? = line at hline'
  cases hline' with
  | some h => rw [hunique.2 h hthree]

end IncrementalBuild.BuildFile
