import IncrementalBuild.Proofs.BuildFile.Reading

/-!
# Which texts are build files

A text is read without an error if and only if its lines are `Grammatical`.  A text whose
lines are all blank declares no target.  The error about any other text tells the number
and the fault of the first line that has a fault.
-/

namespace IncrementalBuild.BuildFile

open Text

variable {text : String}

/-- The lines of a text up to its end: they are read, or the first fault is met. -/
theorem reads_or_firstFault (text : String) :
  (∃ reading, Reading.start.addLines (lines text.toList) = .ok reading
      ∧ Reads (contents text) reading)
    ∨ ∃ e number fault, Reading.start.addLines (lines text.toList) = .error e
      ∧ FirstFault (contents text) number fault ∧ e.line? = some number ∧ e.fault? = some fault
  := by
  obtain ⟨last, hlast, hcontents⟩ := contents_eq_lines text
  rw [hcontents]
  cases hadd : Reading.start.addLines (lines text.toList) with
  | ok reading =>
    left
    use reading, rfl
    have hreads := reads_start.addLines hadd
    rw [List.nil_append] at hreads
    rcases hlast with rfl | rfl
    · rwa [List.append_nil]
    · apply hreads.snoc_blank rfl
  | error e =>
    right
    obtain ⟨number, fault, hfirst, hline, hfault⟩ :=
      reads_start.addLines_error (map_number_linesFrom 1 0 text.toList) hadd
    use e, number, fault, rfl, hfirst.append last, hline, hfault

/-- There are three ways in which reading a text can end. -/
theorem parse_cases (text : String) :
  (Grammatical (contents text) ∧ ∃ g, parse text = .ok g)
    ∨ ((∀ line ∈ contents text, isBlankLine line = true) ∧ parse text = .error .noTarget)
    ∨ ∃ e number fault, FirstFault (contents text) number fault
      ∧ parse text = .error e ∧ e.line? = some number ∧ e.fault? = some fault
  := by
  unfold parse
  rcases reads_or_firstFault text with ⟨reading, hadd, hreads⟩
    | ⟨e, number, fault, hadd, hfirst, hline, hfault⟩
  · rw [hadd]
    by_cases hblank : ∀ line ∈ contents text, isBlankLine line = true
    · right; left
      use hblank
      have hnone : reading.graph.first.isSome = false := by
        rw [hreads.first]
        simpa [isRuleLine] using fun line hmem hnot => absurd (hblank line hmem) (by simp [hnot])
      rw [Option.isSome_eq_false_iff, Option.isNone_iff_eq_none] at hnone
      simp [hnone]
    · left
      have hnotBlank : ∃ line ∈ contents text, isBlankLine line = false := by simpa using hblank
      use grammatical_iff.2 ⟨hreads.clean, hnotBlank⟩, reading.graph
      obtain ⟨line, hmem, hrule⟩ := hreads.clean.exists_isRuleLine hnotBlank
      have hfirst : reading.graph.first.isSome = true := by
        rw [hreads.first]
        apply List.any_eq_true.2 ⟨line, hmem, hrule⟩
      obtain ⟨id, hid⟩ := Option.isSome_iff_exists.1 hfirst
      simp [hid]
  · right; right
    use e, number, fault, hfirst
    rw [hadd]
    use rfl

theorem exists_parse_iff_grammatical :
  (∃ g, parse text = .ok g) ↔ Grammatical (contents text)
  := by
  rcases parse_cases text with ⟨hgrammatical, hparse⟩ | ⟨hblank, hparse⟩
    | ⟨e, number, fault, hfirst, hparse, -⟩
  · apply iff_of_true hparse hgrammatical
  · apply iff_of_false
    · simp [hparse]
    · intro hgrammatical
      obtain ⟨line, hmem, hnot⟩ := hgrammatical.notBlank
      cases (hblank line hmem).symm.trans hnot
  · apply iff_of_false
    · simp [hparse]
    · intro hgrammatical
      apply hfirst.not_clean hgrammatical.clean

theorem parse_eq_noTarget_iff :
  parse text = .error .noTarget ↔ ∀ line ∈ contents text, isBlankLine line = true
  := by
  rcases parse_cases text with ⟨hgrammatical, g, hparse⟩ | ⟨hblank, hparse⟩
    | ⟨e, number, fault, hfirst, hparse, hline, -⟩
  · apply iff_of_false
    · simp [hparse]
    · intro hblank
      obtain ⟨line, hmem, hnot⟩ := hgrammatical.notBlank
      cases (hblank line hmem).symm.trans hnot
  · apply iff_of_true hparse hblank
  · apply iff_of_false
    · intro hnone
      cases hparse.symm.trans hnone
      cases hline
    · intro hblank
      apply hfirst.not_clean (clean_of_isBlankLine hblank)

theorem exists_error_iff_firstFault {number : Nat} {fault : Fault} :
  (∃ e, parse text = .error e ∧ e.line? = some number ∧ e.fault? = some fault)
    ↔ FirstFault (contents text) number fault
  := by
  rcases parse_cases text with ⟨hgrammatical, g, hparse⟩ | ⟨hblank, hparse⟩
    | ⟨e, number', fault', hfirst, hparse, hline, hfault⟩
  · apply iff_of_false
    · simp [hparse]
    · intro hfirst
      apply hfirst.not_clean hgrammatical.clean
  · apply iff_of_false
    · rintro ⟨e, he, hline, -⟩
      cases hparse.symm.trans he
      cases hline
    · intro hfirst
      apply hfirst.not_clean (clean_of_isBlankLine hblank)
  · constructor
    · rintro ⟨e', he', hline', hfault'⟩
      cases hparse.symm.trans he'
      cases hline.symm.trans hline'
      cases hfault.symm.trans hfault'
      apply hfirst
    · intro hfirst'
      obtain ⟨rfl, rfl⟩ := hfirst.unique hfirst'
      use e

/-- A text is a build file if and only if its lines are grammatical; it declares no target
if and only if they are all blank; and the error about any other text is about the first
line that has a fault. -/
theorem parse_outcome_iff (text : String) :
  ((∃ g, parse text = .ok g) ↔ Grammatical (contents text))
    ∧ (parse text = .error .noTarget ↔ ∀ line ∈ contents text, isBlankLine line = true)
    ∧ ∀ number fault,
        (∃ e, parse text = .error e ∧ e.line? = some number ∧ e.fault? = some fault)
          ↔ FirstFault (contents text) number fault
  := ⟨exists_parse_iff_grammatical, parse_eq_noTarget_iff, fun _ _ => exists_error_iff_firstFault⟩

end IncrementalBuild.BuildFile
