import IncrementalBuild.Proofs.BuildFile.Grammar
import IncrementalBuild.Text.Line
import Mathlib.Data.List.TakeWhile

/-!
# Lines, words and rules as the grammar has them

The words that `words` finds are those of the grammar, and `lines` cuts a text where the
grammar does, with one difference that says nothing: a text that is empty or ends with a
line feed has, for the grammar, one more line, which is empty.  `Statement.ofContent` tells
the three kinds of lines apart, and `Rule.parse` reads the rules that declare something, and
answers with the fault of a rule in all other cases.
-/

namespace IncrementalBuild.BuildFile

open Text

/-! ### Words -/

@[simp]
theorem wordsOf_nil :
  wordsOf [] = []
  := by simp [wordsOf, List.splitOnP_nil]

theorem wordsOf_blank {c : Char} (h : isBlank c = true) (cs : List Char) :
  wordsOf (c :: cs) = wordsOf cs
  := by
  rw [wordsOf, List.splitOnP_cons_eq_if_modifyHead, if_pos h]
  simp [wordsOf]

/-- What comes before a blank character, or before the end, is a word. -/
theorem wordsOf_append {run rest : List Char} (hne : run ≠ [])
    (hrun : ∀ c ∈ run, isBlank c = false) (hrest : ∀ c ∈ rest.head?, isBlank c = true) :
  wordsOf (run ++ rest) = String.ofList run :: wordsOf rest
  := by
  cases rest with
  | nil =>
    rw [List.append_nil, wordsOf, List.splitOnP_eq_singleton hrun]
    simp [hne]
  | cons c rest =>
    have hc : isBlank c = true := hrest c rfl
    rw [wordsOf_blank hc, wordsOf, List.splitOnP_append_cons_of_forall_mem hrun c hc]
    simp [wordsOf, hne]

theorem isBlank_of_mem_run {c d : Char} {cs : List Char} (h : ¬ isBlank c = true)
    (hd : d ∈ c :: cs.takeWhile (!isBlank ·)) :
  isBlank d = false
  := by
  rcases List.mem_cons.1 hd with rfl | hd
  · simpa using h
  · simpa using List.mem_takeWhile_imp hd

/-- What follows a run begins with a blank character. -/
theorem isBlank_of_mem_head? {cs : List Char} :
  ∀ d ∈ (cs.dropWhile (!isBlank ·)).head?, isBlank d = true
  := by
  intro d hd
  have hhead := List.head?_dropWhile_not (!isBlank ·) cs
  rw [Option.mem_def.1 hd] at hhead
  simpa using hhead

theorem map_text_wordsFrom (offset : Nat) (cs : List Char) :
  (wordsFrom offset cs).map Word.text = wordsOf cs
  := by
  fun_induction wordsFrom offset cs with
  | case1 => rw [wordsOf_nil, List.map_nil]
  | case2 offset c cs hblank ih => rw [ih, wordsOf_blank hblank]
  | case3 offset c cs hblank run ih =>
    rw [List.map_cons, ih, Word.text, ← wordsOf_append (List.cons_ne_nil _ _)
      (fun _ => isBlank_of_mem_run hblank) isBlank_of_mem_head?, List.cons_append,
      List.takeWhile_append_dropWhile]

theorem namesOf_eq_map_words (line : List Char) :
  namesOf line = (words (line.takeWhile (· ≠ ':'))).map Word.text
  := (map_text_wordsFrom 0 _).symm

/-! ### Cutting at a character -/

section

variable {c d : Char} {cs rest : List Char}

theorem notMem_of_dropWhile_eq_nil (h : cs.dropWhile (· ≠ c) = []) :
  c ∉ cs
  := by
  intro hmem
  simpa using List.dropWhile_eq_nil_iff.1 h c hmem

theorem notMem_takeWhile :
  c ∉ cs.takeWhile (· ≠ c)
  := by
  intro hmem
  simpa using List.mem_takeWhile_imp hmem

theorem eq_append_of_dropWhile_eq_cons (h : cs.dropWhile (· ≠ c) = d :: rest) :
  cs = cs.takeWhile (· ≠ c) ++ c :: rest
  := by
  have hd := List.head?_dropWhile_not (· ≠ c) cs
  rw [h] at hd
  have hd : d = c := by simpa using hd
  rw [← hd, ← h, hd, List.takeWhile_append_dropWhile]

theorem count_of_dropWhile_eq_cons (h : cs.dropWhile (· ≠ c) = d :: rest) :
  cs.count c = rest.count c + 1
  := by
  conv_lhs => rw [eq_append_of_dropWhile_eq_cons h]
  rw [List.count_append, List.count_eq_zero.2 notMem_takeWhile, List.count_cons_self, Nat.zero_add]

theorem forall_ne_of_notMem (h : c ∉ cs) :
  ∀ d ∈ cs, decide (d ≠ c) = true
  := by
  intro d hd
  rw [decide_eq_true_iff]
  rintro rfl
  exact h hd

theorem takeWhile_append_of_notMem (h : c ∉ cs) (rest : List Char) :
  (cs ++ c :: rest).takeWhile (· ≠ c) = cs
  := by
  rw [List.takeWhile_append_of_pos (forall_ne_of_notMem h), List.takeWhile_cons_of_neg (by simp),
    List.append_nil]

theorem dropWhile_append_of_notMem (h : c ∉ cs) (rest : List Char) :
  (cs ++ c :: rest).dropWhile (· ≠ c) = c :: rest
  := by
  rw [List.dropWhile_append_of_pos (forall_ne_of_notMem h), List.dropWhile_cons_of_neg (by simp)]

/-- The names of a line are before its first colon. -/
theorem namesOf_append (h : ':' ∉ cs) (tail : List Char) :
  namesOf (cs ++ ':' :: tail) = wordsOf cs
  := by rw [namesOf, takeWhile_append_of_notMem h]

/-- The dependencies of a line are after its first colon. -/
theorem dependenciesOf_append (h : ':' ∉ cs) (tail : List Char) :
  dependenciesOf (cs ++ ':' :: tail) = wordsOf tail
  := by rw [dependenciesOf, dropWhile_append_of_notMem h, List.tail_cons]

end

/-! ### Lines -/

@[simp]
theorem content_ofBody (number offset : Nat) (body : List Char) (fed : Bool) :
  (Line.ofBody number offset body fed).content = dropReturn body
  := by
  unfold Line.ofBody dropReturn
  split <;> rfl

@[simp]
theorem number_ofBody (number offset : Nat) (body : List Char) (fed : Bool) :
  (Line.ofBody number offset body fed).number = number
  := by
  unfold Line.ofBody
  split <;> rfl

/-- Lines are numbered in order. -/
theorem map_number_linesFrom (number offset : Nat) (cs : List Char) :
  (linesFrom number offset cs).map (·.number)
    = List.range' number (linesFrom number offset cs).length
  := by
  fun_induction linesFrom number offset cs with
  | case1 => rfl
  | case2 => simp
  | case3 number offset c cs body _ rest _ ih =>
    rw [List.map_cons, ih, List.length_cons, List.range'_succ, number_ofBody]

/-- The pieces between line feeds are the lines, and an empty piece at the end of a text that
is empty or ends with a line feed. -/
theorem splitOn_eq_append (number offset : Nat) (cs : List Char) :
  ∃ last, (last = [] ∨ last = [[]])
    ∧ (cs.splitOn '\n').map dropReturn = (linesFrom number offset cs).map (·.content) ++ last
  := by
  fun_induction linesFrom number offset cs with
  | case1 => exact ⟨[[]], .inr rfl, by simp [dropReturn]⟩
  | case2 number offset c cs body hdrop =>
    refine ⟨[], .inl rfl, ?_⟩
    have hbody : body = c :: cs := by
      rw [← List.takeWhile_append_dropWhile (p := (· ≠ '\n')) (l := c :: cs), hdrop,
        List.append_nil]
    rw [List.splitOn_eq_singleton (notMem_of_dropWhile_eq_nil hdrop), hbody]
    simp
  | case3 number offset c cs body _ rest hdrop ih =>
    obtain ⟨last, hlast, ih⟩ := ih
    refine ⟨last, hlast, ?_⟩
    rw [eq_append_of_dropWhile_eq_cons hdrop,
      List.splitOn_append_cons_self_of_not_mem notMem_takeWhile, List.map_cons, ih]
    simp [body]

/-- The lines of a text are those that are read, and one empty line if the text is empty or ends
with a line feed. -/
theorem contents_eq_lines (text : String) :
  ∃ last, (last = [] ∨ last = [[]])
    ∧ contents text = (lines text.toList).map (·.content) ++ last
  := splitOn_eq_append 1 0 text.toList

example : contents "a:\r\n\tcc\n" = [['a', ':'], ['\t', 'c', 'c'], []] := by decide

/-! ### Statements -/

section

variable {content : List Char}

theorem ofContent_of_isBlankLine (h : isBlankLine content = true) :
  Statement.ofContent content = .blank
  := if_pos h

theorem ofContent_of_isRuleLine (h : isRuleLine content = true) :
  Statement.ofContent content = .rule
  := by
  obtain ⟨hblank, htab⟩ := isRuleLine_iff.1 h
  unfold Statement.ofContent
  rw [if_neg (by simpa [isBlankLine] using hblank)]
  split
  · simp at htab
  · rfl

theorem ofContent_of_isCommandLine (h : isCommandLine content = true) :
  Statement.ofContent content = .command (trim content.tail)
  := by
  obtain ⟨hblank, htab⟩ := isCommandLine_iff.1 h
  obtain ⟨rest, rfl⟩ := List.head?_eq_some_iff.1 htab
  rw [Statement.ofContent, if_neg (by simpa [isBlankLine] using hblank)]
  rfl

/-! ### Rules -/

variable (hrule : isRuleLine content = true)

include hrule

theorem declares_of_parse {rule : Rule} (h : Rule.parse content = .ok rule) :
  Declares content rule.name.text ∧ rule.dependencies.map Word.text = dependenciesOf content
  := by
  unfold Rule.parse at h
  dsimp only at h
  split at h
  · cases h
  · next c tail hdrop =>
    have hcount := count_of_dropWhile_eq_cons hdrop
    split at h
    · cases h
    · next htail =>
      have htail : tail.count ':' = 0 := List.count_eq_zero.2 (by simpa using htail)
      split at h
      · cases h
      · next name hwords =>
        cases h
        refine ⟨⟨hrule, ?_, ?_⟩, ?_⟩
        · rw [hcount, htail]
        · rw [namesOf_eq_map_words, hwords, List.map_singleton]
        · rw [map_text_wordsFrom, dependenciesOf, hdrop, List.tail_cons]
      · cases h

theorem breaks_of_parse {flaw : Flaw} (earlier : List (List Char))
    (h : Rule.parse content = .error flaw) :
  Breaks earlier content (.malformed flaw.kind)
  := by
  unfold Rule.parse at h
  dsimp only at h
  split at h
  · next hdrop =>
    cases h
    exact .missingColon hrule (List.count_eq_zero.2 (notMem_of_dropWhile_eq_nil hdrop))
  · next c tail hdrop =>
    have hcount := count_of_dropWhile_eq_cons hdrop
    split at h
    · next htail =>
      cases h
      apply Breaks.extraColon hrule
      rw [hcount]
      have : 0 < tail.count ':' := List.count_pos_iff.2 (by simpa using htail)
      omega
    · next htail =>
      have htail : tail.count ':' = 0 := List.count_eq_zero.2 (by simpa using htail)
      have hcolon : content.count ':' = 1 := by rw [hcount, htail]
      split at h
      · next hwords =>
        cases h
        apply Breaks.emptyName hrule hcolon
        rw [namesOf_eq_map_words, hwords, List.map_nil]
      · cases h
      · next hwords =>
        cases h
        apply Breaks.invalidName hrule hcolon
        rw [namesOf_eq_map_words, hwords]
        simp

end

end IncrementalBuild.BuildFile
